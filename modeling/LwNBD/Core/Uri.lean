import LwNBD.Core.Contexts

/-!
# Finding a context by URI

`src/yuarel.c`, as stripped for lwNBD, and `src/contexts_uri.c`: an export is asked for
as `[prefix/]name[?key=value&...][#fragment]`. The C code cuts the string in place by
writing `NUL`s; here a cut yields the two parts.
-/

namespace LwNBD

open Resumption

/-- `find_and_terminate`: the string cut at the first `find`, and what follows it. -/
def findAndTerminate (str : Bytes) (find : UInt8) : Bytes × Option Bytes :=
  (str.takeWhile (· ≠ find), if find ∈ str then some (str.dropWhile (· ≠ find)).tail else none)

/-- `struct yuarel`. -/
structure Yuarel where
  /-- The path, after the first `/`. -/
  path : Bytes
  /-- What follows `?`. -/
  query : Option Bytes
  /-- What follows `#`. -/
  fragment : Option Bytes
  deriving DecidableEq

/-- `yuarel_parse`: cut off the fragment, then the query, then what precedes the first
slash. It fails only on a `NULL` pointer. -/
def yuarelParse (u : Bytes) : Yuarel :=
  let (u, fragment) := findAndTerminate u '#'.toUInt8
  let (u, query) := findAndTerminate u '?'.toUInt8
  ⟨(findAndTerminate u '/'.toUInt8).2.getD u, query, fragment⟩

/-- The parameters of a query, cut at no more than `n` delimiters. -/
def splitParams (delimiter : UInt8) : ℕ → Bytes → List Bytes
  | 0, query => [query]
  | n + 1, query => match findAndTerminate query delimiter with
    | (param, none) => [param]
    | (param, some rest) => param :: splitParams delimiter n rest

/-- `yuarel_parse_query`: the result, and the entries of `params` that are filled. -/
def yuarelParseQuery (query : Option Bytes) (delimiter : UInt8) (maxParams : ℕ) : ℤ × List Param :=
  match query with
  | none | some [] => (-1, [])
  | some q =>
    let params := splitParams delimiter (maxParams - 1) q
    (params.length, params.map fun param => findAndTerminate param '='.toUInt8)

/-- `MAX_QUERY`. -/
def MAX_QUERY : ℕ := 3

/-- `lwnbd_get_context`: find the context by the path, hand the query to its plugin, and
update its size. -/
def lwnbdGetContext (uri : Bytes) : Server (Option ContextIdx) := do
  note (.enter (.lwnbdGetContext uri))
  let url := yuarelParse uri
  let (pa, params) := yuarelParseQuery url.query '&'.toUInt8 MAX_QUERY
  let reg := (← Prog.read).reg
  match reg.getContextString url.path with
  | none => pure none
  | some i =>
    match (reg.get i).p with
    | none => .halt .undefined
    | some p =>
      let ret ← if p.query then Prog.perform (Call.query p (reg.get i).handle params pa) else pure 0
      if ret ≠ 0 then pure none
      else do
        lwnbdUpdateSize i
        pure (some i)

end LwNBD
