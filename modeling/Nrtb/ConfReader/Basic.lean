import Nrtb.Common
import Nrtb.Lib.Multimap
import Mathlib.Algebra.GroupWithZero.Nat

/-!
# `conf_reader::read(filename)`

`cpp/common/confreader/confreader.cpp`, lines 41–101. One configuration file is read line by line:
`getline` into a 16K buffer, cut at a comment, `trim`, split at the first blank, `gsub` on both
halves, then an include or an insertion into the multimap `values`.

An exception leaves the line loop and is swallowed by the `catch (...)` around it, so the rest of
the file is lost. Reading a character in front of the line (`in[where-1]` with `where == 0`) is
undefined behaviour and no `catch` sees it; it has its own outcome. A line that does not fit into
the buffer sets the failbit of the stream, which ends the loop behind it.

The body of the loop is split in two. What a line asks for is a function of the line (`lineAction`),
and what is done about it is one of the object and the files, with the recursive call for an include
as a parameter. So the grammar of a line can be studied without files, and the graph of the includes
without lines.
-/

namespace Nrtb

open Search

/-- The class's data: the multimap `values`, kept in iteration order, and `filename`. -/
structure ConfReader where
  values : List (Str × Str)
  filename : Str
deriving DecidableEq, Repr

namespace ConfReader

/-- `conf_reader::pair` -/
abbrev Pair := Str × Str

/-- What a call comes to: it returns, it leaves the defined behaviour, or the include depth
given to the model is used up. -/
inductive Outcome (α : Type) where
  | done (a : α)
  | undefined
  | outOfFuel
deriving DecidableEq, Repr

namespace Outcome

def bind {α β : Type} (o : Outcome α) (f : α → Outcome β) : Outcome β :=
  match o with
  | done a => f a
  | undefined => undefined
  | outOfFuel => outOfFuel

theorem bind_eq_done {α β : Type} {o : Outcome α} {f : α → Outcome β} {b : β} :
    o.bind f = done b ↔ ∃ a, o = done a ∧ f a = done b := by
  cases o <;> simp [bind]

end Outcome

/-! ## One line -/

/-- The separators of `find_first_of("\t ")`. -/
def isBlank (c : Byte) : Bool := c == Ch.tab || c == Ch.blank

-- `h` is used by `decreasing_by` only, where the linter does not look.
set_option linter.unusedVariables false in
/-- The comment loop, from the search position `start` on. `none`: the character before the
first one is read. -/
def cutLoop (line : Str) (start : Nat) : Option Str :=
  match h : find line [Ch.hash] start with
  | none => some line
  | some loc =>
    if loc = 0 then none
    else if (line)[loc - 1]? = some Ch.backslash then cutLoop line (loc + 1)
    else some (line.take loc)
  termination_by line.length + 1 - start
  decreasing_by
    have hspec := (find_eq_some_iff _ _ _ _).mp h
    omega

/-- Truncate at the start of a comment. -/
def cutComment (line : Str) : Option Str := cutLoop line 0

/-- `"\\#"` -/
def escapedHash : Str := [Ch.backslash, Ch.hash]

/-- `"*INCLUDE"` -/
def includeName : Str := [42, 73, 78, 67, 76, 85, 68, 69]

/-- What the body of the line loop does with one buffer. -/
inductive LineAction where
  | ignore
  | includeFile (name : Str)
  | insertPair (arg : Pair)
  | throws
  | undefined
deriving DecidableEq, Repr

/-- The body of the line loop up to its effect. -/
def lineAction (inbuff : Str) : LineAction :=
  -- `string in = inbuff` ends at the first NUL
  let line := inbuff.takeWhile fun c => c != Ch.nul
  match cutComment line with
  | none => .undefined
  | some line =>
    let line := trim line
    match line.findIdx? isBlank with
    | none => .ignore
    | some split_point =>
      match gsub (trim (line.take split_point)) escapedHash [Ch.hash],
          gsub (trim (line.drop split_point)) escapedHash [Ch.hash] with
      | .ok first, .ok second =>
        if first = includeName then .includeFile second
        else if first ≠ [] then .insertPair (first, second)
        else .ignore
      | _, _ => .throws

/-! ## The file -/

/-- The size of `inbuff`. -/
def bufSize : Nat := 16 * 1024

/-- The buffers that `while (cfile) cfile.getline(inbuff, 16*1024)` hands to the body, in
order. The last call finds nothing and leaves an empty buffer; a line that does not fit fills
the buffer, sets `failbit` and ends the loop. -/
def inbuffs (content : Str) : List Str :=
  if content = [] then [[]]
  else
    let line := content.takeWhile fun c => c != Ch.newline
    if line.length < bufSize then
      line :: inbuffs (content.drop (line.length + 1))
    else [line.take (bufSize - 1)]
  termination_by content.length
  decreasing_by
    have : content.length ≠ 0 := by simpa using ‹¬ content = []›
    simp only [List.length_drop]
    omega

/-- The line loop inside its `catch (...)`; `inc` is the recursive call for an include. -/
def readLines (inc : Str → ConfReader → Outcome ConfReader) :
    List Str → ConfReader → Outcome ConfReader
  | [], self => .done self
  | inbuff :: rest, self =>
    match lineAction inbuff with
    | .ignore => readLines inc rest self
    | .insertPair arg => readLines inc rest { self with values := Multimap.insert arg self.values }
    | .includeFile name => (inc name self).bind (readLines inc rest)
    | .throws => .done self
    | .undefined => .undefined

/-- `conf_reader::read(filename, clear)` over the files `fs`; the first argument bounds the
depth of includes. Returns the object and the number of stored values, as an `unsigned int`. -/
def read (fs : Str → Option Str) : Nat → Str → Bool → ConfReader → Outcome (ConfReader × Nat)
  | 0, _, _, _ => .outOfFuel
  | depth + 1, fname, clear, self =>
    let self := if fname ≠ [] then { self with filename := fname } else self
    let after : Outcome ConfReader :=
      if self.filename ≠ [] then
        match fs self.filename with
        | none => .done self
        | some content =>
          readLines (fun name s => (read fs depth name false s).bind fun r => .done r.1)
            (inbuffs content) (if clear then { self with values := [] } else self)
      else .done self
    after.bind fun s => .done (s, s.values.length % 2 ^ 32)

end ConfReader

end Nrtb
