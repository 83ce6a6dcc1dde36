import LwNBD.Plugins.Erasure
import LwNBD.Resumption.Keeps

/-!
# Two memory cards

What `mcman_pwrite` finds in the static variables when two cards are exported. A handle keeps the
length of its card's pages, but the number of pages in a block, and the scratch buffer, are there
once for both: each constructor overwrites them. So a write to a card uses the geometry of the card
that was constructed last.

## The model

* `Cards` — what `McGetCardSpec` reports of the two cards, and what `AllocSysMemory` gives.
* `mountBoth`, `Op`, `operate` — the two constructors, a call on an export, and a sequence of calls.
* `Op.Own` — a call that writes finds the geometry of its card, and a scratch buffer that holds a
  block of it.
* `Op.Suits` — the cards are alike as far as the call is concerned.

## What is proved

* `mcmanPread_keeps`, `mcmanPwrite_keeps` — reading and writing leave the static variables, but for
  the content of the scratch buffer.
* `wp_mountBoth` — what the constructors leave.
* `own_iff_suits` — which calls of a run find the geometry of their card.
-/

namespace LwNBD.Mcman

open Resumption

/-! ### Reading and writing -/

section Keeps

variable (mcDataChecksum : Bytes → Vector UInt8 3) {α : Type} {post : α → Prop} {s : Statics}

theorem keeps_pure {a : α} (ha : post a) : (pure a : Mc α).Keeps Kept post s :=
  Prog.Keeps.pure Kept.refl ha

theorem keeps_halt (e : Halt) : (Prog.halt e : Mc α).Keeps Kept post s :=
  Prog.Keeps.halt Kept.refl e

theorem keeps_bind {β : Type} {post' : β → Prop} {p : Mc α} {f : α → Mc β}
    (hp : p.Keeps Kept post s) (hf : ∀ a s', post a → Kept s s' → (f a).Keeps Kept post' s') :
    (p >>= f).Keeps Kept post' s :=
  Prog.Keeps.bind (fun _ _ _ h h' => h.trans h') hp hf

/-- A loop that counts, and what follows it: `I` is kept by its rounds, and `left` holds of what it
is left with. -/
theorem keeps_count {X ρ β : Type} {post' : β → Prop} {body : ℕ → X → Mc (Ctl X ρ)} {n j : ℕ}
    {x : X} {f : Ctl X ρ → Mc β} (I : X → Prop) (left : ρ → Prop) (hx : I x)
    (hbody : ∀ j x s, I x → (body j x).Keeps Kept (Ctl.Both I left) s)
    (hf : ∀ c s', Ctl.Both I left c → (f c).Keeps Kept post' s') :
    (Prog.count body n j x >>= f).Keeps Kept post' s :=
  keeps_bind (Prog.Keeps.count Kept.refl (fun _ _ _ h h' => h.trans h') I hbody n j hx) fun c
    s' hc _ => hf c s' hc

theorem keeps_checked (n : ℤ) : (checked n).Keeps Kept (fun _ => True) s := by
  unfold checked
  exact Prog.Keeps.ite (fun _ => keeps_pure trivial) fun _ => keeps_halt _

theorem keeps_perform (e : McCall) :
    (Prog.perform e : Mc (McResp e)).Keeps Kept (fun _ => True) s :=
  Prog.Keeps.perform Kept.refl e

theorem writeBlock_keeps (port block : ℤ) (buffer : Bytes) (pageSize ppb : ℕ) :
    (writeBlock mcDataChecksum port block buffer pageSize ppb).Keeps Kept (fun _ => True) s := by
  unfold writeBlock
  refine keeps_bind (keeps_perform _) fun result s₁ _ _ =>
    Prog.Keeps.ite (fun _ => keeps_pure trivial) fun _ => ?_
  refine keeps_count (fun _ => True) (fun _ => True) trivial ?_ fun c s₂ _ => ?_
  · intro j ecc s₂ _
    unfold writeBlockPage
    refine keeps_bind (keeps_checked _) fun place _ _ _ => Prog.Keeps.ite (fun _ => ?_) fun _ =>
      keeps_halt _
    refine keeps_bind (keeps_checked _) fun first _ _ _ =>
      keeps_bind (keeps_checked _) fun page _ _ _ =>
      Prog.Keeps.ite (fun _ => ?_) fun _ => keeps_halt _
    refine keeps_bind (keeps_perform _) fun r _ _ _ => keeps_pure ?_
    split_ifs
    all_goals trivial
  · cases c
    all_goals exact keeps_pure trivial

theorem readBlock_keeps (port block : ℤ) (buffer : Bytes) (pageSize ppb : ℕ) :
    (readBlock port block buffer pageSize ppb).Keeps Kept (fun r => r.2.length = buffer.length)
    s := by
  unfold readBlock
  refine keeps_count (fun b => b.length = buffer.length) (fun r => r.2.length = buffer.length)
    rfl ?_ fun c s₂ hc => ?_
  · intro j b s₂ hb
    unfold readBlockPage
    refine keeps_bind (keeps_checked _) fun place _ _ _ =>
      keeps_bind (keeps_checked _) fun first _ _ _ =>
      keeps_bind (keeps_checked _) fun page _ _ _ => keeps_bind (keeps_perform _) fun r _ _ _ =>
        Prog.Keeps.ite (fun hle => ?_) fun _ => keeps_halt _
    have hlen : (b.overwrite place.toNat r.data).length = buffer.length := by
      rw [List.length_overwrite hle, hb]
    refine keeps_pure ?_
    split_ifs
    all_goals exact hlen
  · cases c with
    | next b => exact Prog.Keeps.ite (fun _ => keeps_halt _) fun _ => keeps_pure hc
    | done r => exact keeps_pure hc

theorem injectPages_keeps (port block : ℤ) (pageSize : ℕ) (offset nPages : ℤ)
    (ppb : ℕ) (buffer : Bytes) :
    (injectPages mcDataChecksum port block pageSize offset nPages ppb buffer).Keeps Kept
    (fun _ => True) s := by
  have hfetch : ∀ s, (fetchBlock port block pageSize offset nPages ppb).Keeps Kept
      (fun _ => True) s := by
    intro s
    unfold fetchBlock
    refine Prog.Keeps.ite (fun _ => Prog.Keeps.read_bind ?_) fun _ => keeps_pure trivial
    refine keeps_bind (readBlock_keeps port block _ _ _) fun r s₁ hr hs₁ =>
      keeps_bind (Prog.Keeps.modify ⟨rfl, rfl, ?_⟩) fun _ _ _ _ => keeps_pure trivial
    have hsize := hs₁.size
    cases hb : s.bbuffer with
    | none =>
      rw [hb, Option.map_none, Option.map_eq_none_iff] at hsize
      rw [hsize]
      rfl
    | some b =>
      rw [hb, Option.map_some, Option.map_eq_some_iff] at hsize
      obtain ⟨b', hb', hlen⟩ := hsize
      rw [Statics.scratch, hb] at hr
      rw [hb']
      exact congrArg some (hr.trans hlen.symm)
  have hbuffer : ∀ s, (injectBuffer pageSize offset nPages buffer).Keeps Kept
      (fun _ => True) s := by
    intro s
    unfold injectBuffer
    refine keeps_bind (keeps_checked _) fun place s₁ _ _ =>
      keeps_bind (keeps_checked _) fun size s₂ _ _ =>
      Prog.Keeps.read_bind ?_
    cases hb : s₂.bbuffer with
    | none => exact keeps_halt _
    | some b =>
      refine Prog.Keeps.ite (fun h => Prog.Keeps.modify ⟨rfl, rfl, ?_⟩) fun _ => keeps_halt _
      rw [hb]
      refine congrArg some (List.length_overwrite ?_)
      rw [List.length_take]
      omega
  unfold injectPages
  exact keeps_bind (hfetch s) fun result s₁ _ _ =>
    Prog.Keeps.ite (fun _ => keeps_pure trivial) fun _ =>
    keeps_bind (hbuffer s₁) fun _ s₂ _ _ =>
      Prog.Keeps.read_bind (writeBlock_keeps mcDataChecksum port block _ _ _)

/-- A write leaves the static variables, but for the content of the scratch buffer. -/
theorem mcmanPwrite_keeps (d : HandleIdx) (buf : Bytes) (count : UInt32)
    (offset : UInt64) (flags : UInt32) :
    (mcmanPwrite mcDataChecksum d buf count offset flags).Keeps Kept (fun _ => True) s := by
  unfold mcmanPwrite
  refine Prog.Keeps.read_bind (Prog.Keeps.ite (fun _ => keeps_halt _) fun _ => ?_)
  refine Prog.Keeps.loop Kept.refl (fun _ _ _ h h' => h.trans h') (fun _ => True)
    (fun x s₁ _ => ?_) _ trivial
  unfold pwriteBlock
  refine Prog.Keeps.ite (fun _ => Prog.Keeps.read_bind ?_) fun _ => keeps_pure trivial
  refine keeps_bind (keeps_checked _) fun place _ _ _ => Prog.Keeps.ite (fun _ => ?_) fun _ =>
    keeps_halt _
  refine keeps_bind (injectPages_keeps mcDataChecksum _ _ _ _ _ _ _) fun r _ _ _ =>
    Prog.Keeps.ite (fun _ => keeps_pure trivial) fun _ => ?_
  exact keeps_bind (keeps_checked _) fun i _ _ _ => keeps_pure trivial

theorem mcmanPread_keeps (d : HandleIdx) (buf : Bytes) (count : UInt32)
    (offset : UInt64) (flags : UInt32) :
    (mcmanPread d buf count offset flags).Keeps Kept (fun _ => True) s := by
  unfold mcmanPread
  refine Prog.Keeps.read_bind (keeps_count (fun _ => True) (fun _ => True) trivial ?_ fun c _ _ =>
    ?_)
  · intro i b s₁ _
    unfold preadPage
    refine keeps_bind (keeps_checked _) fun place _ _ _ =>
      keeps_bind (keeps_perform _) fun r _ _ _ =>
      Prog.Keeps.ite (fun _ => Prog.Keeps.ite (fun _ => keeps_pure trivial) fun _ => ?_) fun _ =>
        keeps_halt _
    exact keeps_bind (keeps_checked _) fun _ _ _ _ => keeps_pure trivial
  · cases c
    all_goals exact keeps_pure trivial

end Keeps

/-! ### Two cards -/

/-- The bytes of a block. -/
def CardSpec.blockBytes (spec : CardSpec) : ℤ := spec.pageLen.toInt * spec.pagesPerBlock.toNat

/-- What is reported of the cards, whenever it is asked for, and what memory there is. -/
structure Cards {σ : Type} (env : Env McCall McResp σ) (specs : HandleIdx → CardSpec)
    (memory : ℤ → Option (ℕ → UInt8)) : Prop where
  /-- What `McGetCardSpec` reports of a card. -/
  spec : ∀ w (d : HandleIdx), (env w (.getCardSpec d 0)).1 = specs d
  /-- The cards are there. -/
  present : ∀ d, (specs d).ret = 0
  /-- What `AllocSysMemory` gives. -/
  memory : ∀ w size, (env w (.allocSysMemory size)).1 = memory size

/-- The constructors, for one card and then another; their results. -/
def mountBoth (a b : HandleIdx) (c c' : Context) : Mc (ℤ × ℤ) := do
  let r ← mcmanCtor (UInt8.ofNat a) c
  let r' ← mcmanCtor (UInt8.ofNat b) c'
  pure (r.1, r'.1)

/-- A call on an export. -/
inductive Op where
  /-- `mcman_pread`. -/
  | pread (d : HandleIdx) (buf : Bytes) (count : UInt32) (offset : UInt64) (flags : UInt32)
  /-- `mcman_pwrite`. -/
  | pwrite (d : HandleIdx) (buf : Bytes) (count : UInt32) (offset : UInt64) (flags : UInt32)

/-- A call finds the geometry of its card, and a scratch buffer that holds a block of it. To read
takes neither. -/
def Op.Own (specs : HandleIdx → CardSpec) (s : Statics) : Op → Prop
  | .pread .. => True
  | .pwrite d .. => s.pagesPerBlock = (specs d).pagesPerBlock ∧
    ∃ b, s.bbuffer = some b ∧ (specs d).blockBytes ≤ b.length

/-- The card of a call is as the one constructed last, as far as the call is concerned: a block has
as many pages and no more bytes, and there was memory for it. -/
def Op.Suits (specs : HandleIdx → CardSpec) (memory : ℤ → Option (ℕ → UInt8)) (last : HandleIdx) :
    Op → Prop
  | .pread .. => True
  | .pwrite d .. => (specs last).pagesPerBlock = (specs d).pagesPerBlock ∧
    (memory (specs last).blockBytes).isSome ∧ (specs d).blockBytes ≤ (specs last).blockBytes.toNat

section Session

variable (mcDataChecksum : Bytes → Vector UInt8 3) {σ : Type} {env : Env McCall McResp σ}
  {specs : HandleIdx → CardSpec} {memory : ℤ → Option (ℕ → UInt8)} {s : Statics} {w : σ}

/-- Make a call. -/
def Op.make : Op → Mc Unit
  | .pread d buf count offset flags => do
    let _ ← mcmanPread d buf count offset flags
  | .pwrite d buf count offset flags => do
    let _ ← mcmanPwrite mcDataChecksum d buf count offset flags

/-- Make calls, one after the other. -/
def operate : List Op → Mc Unit
  | [] => pure ()
  | op :: ops => do
    op.make mcDataChecksum
    operate ops

/-- The cards are constructed, and then calls are made. -/
def session (a b : HandleIdx) (c c' : Context) (ops : List Op) : Mc Unit := do
  let _ ← mountBoth a b c c'
  operate mcDataChecksum ops

theorem operate_keeps (ops : List Op) :
    (operate mcDataChecksum ops).Keeps Kept (fun _ => True) s := by
  induction ops generalizing s with
  | nil => exact keeps_pure trivial
  | cons op ops ih =>
    have hop : (op.make mcDataChecksum).Keeps Kept (fun _ => True) s := by
      cases op with
      | pread => exact keeps_bind (mcmanPread_keeps _ _ _ _ _) fun _ _ _ _ => keeps_pure trivial
      | pwrite =>
        exact keeps_bind (mcmanPwrite_keeps mcDataChecksum _ _ _ _ _) fun _ _ _ _ =>
        keeps_pure trivial
    exact keeps_bind hop fun _ _ _ _ => ih

theorem wp_mcmanCtor (hcards : Cards env specs memory) (d : HandleIdx) (c : Context) :
    wp env (mcmanCtor (UInt8.ofNat d) c) (fun o s' _ _ => (∃ c', o = .ret (0, c')) ∧
      s'.pagesPerBlock = (specs d).pagesPerBlock ∧
      s'.bbuffer = (memory (specs d).blockBytes).map fun m =>
        (List.range (specs d).blockBytes.toNat).map m) s w := by
  have hdevice : (UInt8.ofNat d).toNat = d := by
    rw [UInt8.toNat_ofNat']
    exact Nat.mod_eq_of_lt (Nat.lt_of_lt_of_le d.isLt (by decide))
  have hspec : ∀ w (n : ℕ), n = d → (env w (.getCardSpec n 0)).1 = specs d := by
    rintro w _ rfl
    exact hcards.spec w d
  unfold mcmanCtor
  rw [wp_bind, wp_perform, Post.seq_ret, wp_bind, wp_perform, Post.seq_ret,
    hspec _ _ hdevice, wp_bind, wp_modify, Post.seq_ret, if_pos (hcards.present d),
    dif_pos (by rw [hdevice]; exact d.isLt), wp_bind, wp_perform, Post.seq_ret, hcards.memory,
    wp_bind, wp_modify, Post.seq_ret, wp_pure]
  exact ⟨⟨_, rfl⟩, rfl, rfl⟩

/-- What the constructors leave is what the last one does. -/
theorem wp_mountBoth (hcards : Cards env specs memory) (a b : HandleIdx) (c c' : Context) :
    wp env (mountBoth a b c c') (fun o s' _ _ => o = .ret (0, 0) ∧
      s'.pagesPerBlock = (specs b).pagesPerBlock ∧ s'.bbuffer = (memory (specs b).blockBytes).map
      fun m => (List.range (specs b).blockBytes.toNat).map m) s w := by
  unfold mountBoth
  rw [wp_bind]
  refine wp_mono env ?_ (wp_mcmanCtor hcards a c)
  rintro o s₁ w₁ t ⟨⟨c₁, rfl⟩, -⟩
  rw [Post.seq_ret, wp_bind]
  refine wp_mono env ?_ (wp_mcmanCtor hcards b c')
  rintro o s₂ w₂ t' ⟨⟨c₂, rfl⟩, h⟩
  exact ⟨rfl, h⟩

/-- **Which calls find the geometry of their card**: after whatever calls, those on a card that is
as the one constructed last. -/
theorem own_iff_suits (hcards : Cards env specs memory) (a b : HandleIdx) (c c' : Context)
    (ops : List Op) (op : Op) :
    op.Own specs ((session mcDataChecksum a b c c' ops).run env s w).mem ↔
    op.Suits specs memory b := by
  cases op with
  | pread => exact Iff.rfl
  | pwrite d =>
    show wp env (session mcDataChecksum a b c c' ops) (fun _ s' _ _ =>
      (s'.pagesPerBlock = (specs d).pagesPerBlock ∧ ∃ m, s'.bbuffer = some m ∧
        (specs d).blockBytes ≤ m.length) ↔ Op.Suits specs memory b (.pwrite d _ _ _ _)) s w
    unfold session
    rw [wp_bind]
    refine wp_mono env ?_ (wp_mountBoth hcards a b c c')
    rintro o s₁ w₁ t ⟨rfl, hppb, hbuffer⟩
    rw [Post.seq_ret]
    refine wp_mono env ?_ (operate_keeps mcDataChecksum ops σ env w₁)
    rintro o' s' w' t' ⟨hkept, -⟩
    have hsize := hkept.size
    show (s'.pagesPerBlock = _ ∧ _) ↔ ((specs b).pagesPerBlock = _ ∧ _ ∧ _)
    rw [hkept.pagesPerBlock, hppb]
    refine and_congr_right fun _ => ?_
    cases hm : memory (specs b).blockBytes with
    | none =>
      rw [hbuffer, hm, Option.map_none, Option.map_none, Option.map_eq_none_iff] at hsize
      rw [hsize]
      simp
    | some m =>
      rw [hbuffer, hm, Option.map_some, Option.map_some, Option.map_eq_some_iff] at hsize
      obtain ⟨b', hb', hlen⟩ := hsize
      rw [hb']
      simp only [List.length_map, List.length_range] at hlen
      simp [hlen]

end Session

/-! ### Cards that differ -/

namespace Sample

/-- Two cards with pages of 512 bytes: four pages in a block of the first, two in one of the
second. -/
def twoSpecs (d : HandleIdx) : CardSpec := ⟨0, 512, if d = 0 then 4 else 2, 16384, 0⟩

/-- Their library, for which no call fails. -/
def twoCards : Env McCall McResp Unit
  | _, .getCardSpec port _ => (if port = 0 then twoSpecs 0 else twoSpecs 1, ())
  | _, .allocSysMemory _ => (some fun _ => 0, ())
  | _, .readPage .. => (⟨0, List.replicate 512 0⟩, ())
  | _, .detectCard .. | _, .eraseBlock .. | _, .writePage .. => (0, ())

theorem twoCards_cards : Cards twoCards twoSpecs fun _ => some fun _ => 0 where
  spec w d := by
    match d with
    | 0 => rfl
    | 1 => rfl
  present _ := rfl
  memory _ _ := rfl

end Sample

/-- A read of the first card, and a write to the second, which was constructed last. -/
theorem own_second : Op.Own Sample.twoSpecs ((session Sample.checksum 0 1 .zero .zero
    [.pread 0 [] 0 0 0]).run Sample.twoCards .zero ()).mem
    (.pwrite 1 (List.replicate 512 7) 1 2 0) :=
  (own_iff_suits Sample.checksum Sample.twoCards_cards 0 1 .zero .zero _ _).mpr
    ⟨rfl, rfl, by decide⟩

/-- **A write to the card constructed first** takes its pages for the other's: page 2, which is in
block 0, is written to block 1. -/
theorem first_not_own :
    ¬ Op.Own Sample.twoSpecs
    ((session Sample.checksum 0 1 .zero .zero []).run Sample.twoCards .zero ()).mem
        (.pwrite 0 (List.replicate 512 7) 1 2 0) ∧
      erasures ((session Sample.checksum 0 1 .zero .zero
      [.pwrite 0 (List.replicate 512 7) 1 2 0]).run
        Sample.twoCards .zero ()).trace = [(0, 1)] := by
  have hppb :
      ((session Sample.checksum 0 1 .zero .zero []).run Sample.twoCards .zero
      ()).mem.pagesPerBlock = 2 := by
    decide +kernel
  refine ⟨fun h => ?_, by decide +kernel⟩
  obtain ⟨h, -⟩ := h
  rw [hppb] at h
  exact absurd h (by decide)

end LwNBD.Mcman
