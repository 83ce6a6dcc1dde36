import LwNBD.Core.Types
import LwNBD.Data.BigEndian
import LwNBD.Data.Slice

/-!
# The NBD protocol

`include/lwnbd/nbd-protocol.h`: the constants, and the structures as they go over the
wire. All fields are sent in network byte order; `be16`, `be32` and `be64` read one.

The code converts the fields of a structure it has received in place. What the structure
then holds in memory is `hostOrder`, on the little-endian hosts lwNBD runs on; it is
seen again only if a later receive stores less than the whole structure.
-/

namespace LwNBD

/-! ### Constants -/

def NBD_MAGIC : UInt64 := 0x4e42444d41474943
def NBD_NEW_VERSION : UInt64 := 0x49484156454F5054
def NBD_REP_MAGIC : UInt64 := 0x3e889045565a9

def NBD_FLAG_NO_ZEROES : UInt32 := 2

def NBD_FLAG_HAS_FLAGS : UInt16 := 1
def NBD_FLAG_READ_ONLY : UInt16 := 2
def NBD_FLAG_SEND_FLUSH : UInt16 := 4

def NBD_OPT_EXPORT_NAME : UInt32 := 1
def NBD_OPT_ABORT : UInt32 := 2
def NBD_OPT_LIST : UInt32 := 3

def NBD_REP_ACK : UInt32 := 1
def NBD_REP_SERVER : UInt32 := 2
def NBD_REP_ERR_UNSUP : UInt32 := 0x80000001

def NBD_REQUEST_MAGIC : UInt32 := 0x25609513
def NBD_SIMPLE_REPLY_MAGIC : UInt32 := 0x67446698

def NBD_CMD_READ : UInt16 := 0
def NBD_CMD_WRITE : UInt16 := 1
def NBD_CMD_DISC : UInt16 := 2
def NBD_CMD_FLUSH : UInt16 := 3

def NBD_SUCCESS : UInt32 := 0
def NBD_EPERM : UInt32 := 1
def NBD_EIO : UInt32 := 5
def NBD_EINVAL : UInt32 := 22
def NBD_ENOSPC : UInt32 := 28
def NBD_EOVERFLOW : UInt32 := 75

/-- `MSG_MORE`. -/
def MSG_MORE : ℤ := 0x8000

/-! ### Fields -/

def be16 (b : Bytes) : UInt16 := .ofNat (BigEndian.ofBytes b)
def be32 (b : Bytes) : UInt32 := .ofNat (BigEndian.ofBytes b)
def be64 (b : Bytes) : UInt64 := .ofNat (BigEndian.ofBytes b)

/-- `htons`. -/
def toBe16 (n : UInt16) : Bytes := BigEndian.toBytes 2 n.toNat
/-- `htonl`. -/
def toBe32 (n : UInt32) : Bytes := BigEndian.toBytes 4 n.toNat
/-- `htobe64`. -/
def toBe64 (n : UInt64) : Bytes := BigEndian.toBytes 8 n.toNat

@[simp] theorem length_toBe16 (n : UInt16) : (toBe16 n).length = 2 := by simp [toBe16]
@[simp] theorem length_toBe32 (n : UInt32) : (toBe32 n).length = 4 := by simp [toBe32]
@[simp] theorem length_toBe64 (n : UInt64) : (toBe64 n).length = 8 := by simp [toBe64]

@[simp] theorem be16_toBe16 (n : UInt16) : be16 (toBe16 n) = n := by
  rw [be16, toBe16, BigEndian.ofBytes_toBytes n.toNat_lt, UInt16.ofNat_toNat]

@[simp] theorem be32_toBe32 (n : UInt32) : be32 (toBe32 n) = n := by
  rw [be32, toBe32, BigEndian.ofBytes_toBytes n.toNat_lt, UInt32.ofNat_toNat]

@[simp] theorem be64_toBe64 (n : UInt64) : be64 (toBe64 n) = n := by
  rw [be64, toBe64, BigEndian.ofBytes_toBytes n.toNat_lt, UInt64.ofNat_toNat]

theorem toBe32_inj {m n : UInt32} (h : toBe32 m = toBe32 n) : m = n := by
  rw [← be32_toBe32 m, h, be32_toBe32]

theorem toBe64_inj {m n : UInt64} (h : toBe64 m = toBe64 n) : m = n := by
  rw [← be64_toBe64 m, h, be64_toBe64]

/-! ### The handshake -/

/-- `struct nbd_new_handshake`, the greeting. -/
def newHandshake (gflags : UInt16) : Bytes :=
  toBe64 NBD_MAGIC ++ toBe64 NBD_NEW_VERSION ++ toBe16 gflags

/-- `struct nbd_new_option`, an option sent by the client. -/
structure NbdNewOption where
  /-- `NBD_NEW_VERSION`. -/
  version : UInt64
  /-- `NBD_OPT_*`. -/
  option : UInt32
  /-- Option data length. -/
  optlen : UInt32
  deriving DecidableEq

/-- The structure as the client sends it. -/
def NbdNewOption.toBytes (t : NbdNewOption) : Bytes :=
  toBe64 t.version ++ toBe32 t.option ++ toBe32 t.optlen

/-- The structure read from the wire. -/
def NbdNewOption.ofBytes (b : Bytes) : NbdNewOption :=
  ⟨be64 (b.slice 0 8), be32 (b.slice 8 4), be32 (b.slice 12 4)⟩

@[simp] theorem NbdNewOption.length_toBytes (t : NbdNewOption) : t.toBytes.length = 16 := by
  simp [toBytes]

@[simp] theorem NbdNewOption.ofBytes_toBytes (t : NbdNewOption) : ofBytes t.toBytes = t := by
  have h0 : t.toBytes.slice 0 8 = toBe64 t.version := by
    simp [toBytes, -List.append_assoc, List.slice_append_left, List.slice_eq_self]
  have h8 : t.toBytes.slice 8 4 = toBe32 t.option := by
    simp [toBytes, -List.append_assoc, List.slice_append_left,
      List.slice_append_right, List.slice_eq_self]
  have h12 : t.toBytes.slice 12 4 = toBe32 t.optlen := by
    simp [toBytes, -List.append_assoc, List.slice_append_right, List.slice_eq_self]
  simp only [ofBytes, h0, h8, h12, be32_toBe32, be64_toBe64]

/-- The memory of the structure after its fields were converted. -/
def NbdNewOption.hostOrder (b : Bytes) : Bytes :=
  (b.slice 0 8).reverse ++ (b.slice 8 4).reverse ++ (b.slice 12 4).reverse

theorem NbdNewOption.length_hostOrder {b : Bytes} (h : b.length = 16) :
    (hostOrder b).length = 16 := by
  simp [hostOrder, List.length_slice, h]

/-- `struct nbd_export_name_option_reply`, with its 124 zeroes. -/
def exportNameOptionReply (exportsize : UInt64) (eflags : UInt16) : Bytes :=
  toBe64 exportsize ++ toBe16 eflags ++ List.replicate 124 0

@[simp] theorem length_exportNameOptionReply (exportsize : UInt64) (eflags : UInt16) :
    (exportNameOptionReply exportsize eflags).length = 134 := by simp [exportNameOptionReply]

/-- `struct nbd_fixed_new_option_reply`. -/
def fixedNewOptionReply (option reply replylen : UInt32) : Bytes :=
  toBe64 NBD_REP_MAGIC ++ toBe32 option ++ toBe32 reply ++ toBe32 replylen

/-! ### The transmission phase -/

/-- `struct nbd_request`. The handle is opaque: it is copied, not converted. -/
structure NbdRequest where
  /-- `NBD_REQUEST_MAGIC`. -/
  magic : UInt32
  /-- Request flags. -/
  flags : UInt16
  /-- Request type. -/
  type : UInt16
  /-- Opaque handle. -/
  handle : UInt64
  /-- Request offset. -/
  offset : UInt64
  /-- Request length. -/
  count : UInt32
  deriving DecidableEq

/-- The structure as the client sends it. -/
def NbdRequest.toBytes (q : NbdRequest) : Bytes :=
  toBe32 q.magic ++ toBe16 q.flags ++ toBe16 q.type ++ toBe64 q.handle ++
    toBe64 q.offset ++ toBe32 q.count

/-- The structure read from the wire. -/
def NbdRequest.ofBytes (b : Bytes) : NbdRequest where
  magic := be32 (b.slice 0 4)
  flags := be16 (b.slice 4 2)
  type := be16 (b.slice 6 2)
  handle := be64 (b.slice 8 8)
  offset := be64 (b.slice 16 8)
  count := be32 (b.slice 24 4)

/-- The memory of the structure after its fields, but for the handle, were converted. -/
def NbdRequest.hostOrder (b : Bytes) : Bytes :=
  (b.slice 0 4).reverse ++ (b.slice 4 2).reverse ++ (b.slice 6 2).reverse ++ b.slice 8 8 ++
    (b.slice 16 8).reverse ++ (b.slice 24 4).reverse

@[simp] theorem NbdRequest.length_toBytes (q : NbdRequest) : q.toBytes.length = 28 := by
  simp [toBytes]

theorem NbdRequest.length_hostOrder {b : Bytes} (h : b.length = 28) :
    (hostOrder b).length = 28 := by
  simp [hostOrder, List.length_slice, h]

@[simp] theorem NbdRequest.ofBytes_toBytes (q : NbdRequest) : ofBytes q.toBytes = q := by
  have h0 : q.toBytes.slice 0 4 = toBe32 q.magic := by
    simp [toBytes, -List.append_assoc, List.slice_append_left, List.slice_eq_self]
  have h4 : q.toBytes.slice 4 2 = toBe16 q.flags := by
    simp [toBytes, -List.append_assoc, List.slice_append_left,
      List.slice_append_right, List.slice_eq_self]
  have h6 : q.toBytes.slice 6 2 = toBe16 q.type := by
    simp [toBytes, -List.append_assoc, List.slice_append_left,
      List.slice_append_right, List.slice_eq_self]
  have h8 : q.toBytes.slice 8 8 = toBe64 q.handle := by
    simp [toBytes, -List.append_assoc, List.slice_append_left,
      List.slice_append_right, List.slice_eq_self]
  have h16 : q.toBytes.slice 16 8 = toBe64 q.offset := by
    simp [toBytes, -List.append_assoc, List.slice_append_left,
      List.slice_append_right, List.slice_eq_self]
  have h24 : q.toBytes.slice 24 4 = toBe32 q.count := by
    simp [toBytes, -List.append_assoc, List.slice_append_right, List.slice_eq_self]
  simp only [ofBytes, h0, h4, h6, h8, h16, h24, be16_toBe16, be32_toBe32, be64_toBe64]

/-- `struct nbd_simple_reply`. -/
def simpleReply (error : UInt32) (handle : UInt64) : Bytes :=
  toBe32 NBD_SIMPLE_REPLY_MAGIC ++ toBe32 error ++ toBe64 handle

@[simp] theorem length_simpleReply (error : UInt32) (handle : UInt64) :
    (simpleReply error handle).length = 16 := by simp [simpleReply]

theorem simpleReply_inj {e e' : UInt32} {k k' : UInt64} (h : simpleReply e k = simpleReply e' k') :
    e = e' ∧ k = k' := by
  unfold simpleReply at h
  obtain ⟨h, hk⟩ := List.append_inj h (by simp)
  obtain ⟨-, he⟩ := List.append_inj h (by simp)
  exact ⟨toBe32_inj he, toBe64_inj hk⟩

end LwNBD
