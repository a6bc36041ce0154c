import Nrtb.Lib.TransitionSystem
import Mathlib.Algebra.GroupWithZero.Nat
import Mathlib.Logic.Function.Basic

/-!
# Calls on the cells of a memory

Threads call methods on the cells of a memory that has no locks. A call reads and stores in its own
cell as long as it runs; what the cell holds meanwhile is arbitrary. A call that had the cell to
itself leaves there what the method makes of what it found; calls that overlapped leave anything.

Nothing is assumed of the order in which the calls of different cells interleave. A program that
wants a result to be independent of its threads has to show that no call begins on a cell that
another one has, and the rest is said here once. The log of a run is looked at cell by cell: the
calls that began on a cell are counted, and the methods that returned on it are listed.

* `Serial.step`: when no call begins on a cell that another one has, every cell goes through its own
  calls one after the other, in the order in which they return. A step changes one cell and the log
  of that cell (`Serial.update`), the other cells do not notice.
* `Serial.load`: what other threads read of a cell that nobody has.
-/

namespace Nrtb.Cells

variable {κ μ β ρ : Type*}

/-- A cell, with the calls that run on it. -/
structure Cell (β : Type*) where
  memory : β
  -- what it held when the last call began
  entry : β
  running : Nat
  -- no other call has run beside those that run now
  clean : Bool

/-- A cell that nobody has. -/
def Cell.idle (x : β) : Cell β := ⟨x, x, 0, true⟩

inductive Access (κ μ β ρ : Type*) where
  -- a call of the method begins
  | enter (m : μ) (k : κ)
  -- a call that runs on the cell stores in it
  | store (k : κ) (x : β)
  -- a call returns
  | leave (m : μ) (k : κ) (answer : ρ)
  -- some thread reads the cell
  | load (k : κ) (x : β)

section Step

variable [DecidableEq κ]

/-- `call m k x` is what the method makes of a cell that holds `x`, and its answer. -/
inductive Step (call : μ → κ → β → β × ρ) :
    (κ → Cell β) → Access κ μ β ρ → (κ → Cell β) → Prop
  | enter (c : κ → Cell β) (m : μ) (k : κ) :
      Step call c (.enter m k) (Function.update c k
        ⟨(c k).memory, (c k).memory, (c k).running + 1, decide ((c k).running = 0)⟩)
  | store (c : κ → Cell β) (k : κ) (x : β) (hrunning : 0 < (c k).running) :
      Step call c (.store k x) (Function.update c k { c k with memory := x })
  | leave (c : κ → Cell β) (m : μ) (k : κ) (x : β) (answer : ρ) (hrunning : 0 < (c k).running)
      (hclean : (c k).clean = true → (x, answer) = call m k (c k).entry) :
      Step call c (.leave m k answer)
        (Function.update c k { c k with memory := x, running := (c k).running - 1 })
  | load (c : κ → Cell β) (k : κ) : Step call c (.load k (c k).memory) c

/-- A step that may leave the memory alone. -/
def Moves (call : μ → κ → β → β × ρ) (c : κ → Cell β) (a? : Option (Access κ μ β ρ))
    (c' : κ → Cell β) : Prop :=
  match a? with
  | none => c' = c
  | some a => Step call c a c'

/-- The calls that began on a cell. -/
def Access.entered (k : κ) : Access κ μ β ρ → Nat
  | enter _ k' => if k' = k then 1 else 0
  | _ => 0

/-- The methods that returned on a cell. -/
def Access.left (k : κ) : Access κ μ β ρ → List μ
  | leave m k' _ => if k' = k then [m] else []
  | _ => []

def entered (k : κ) (log : List (Access κ μ β ρ)) : Nat := (log.map (Access.entered k)).sum

def left (k : κ) (log : List (Access κ μ β ρ)) : List μ := log.flatMap (Access.left k)

@[simp] theorem entered_append (k : κ) (log log' : List (Access κ μ β ρ)) :
    entered k (log ++ log') = entered k log + entered k log' := by
  simp [entered]

@[simp] theorem left_append (k : κ) (log log' : List (Access κ μ β ρ)) :
    left k (log ++ log') = left k log ++ left k log' :=
  List.flatMap_append

@[simp] theorem entered_singleton (k : κ) (a : Access κ μ β ρ) : entered k [a] = a.entered k := by
  simp [entered]

@[simp] theorem left_singleton (k : κ) (a : Access κ μ β ρ) : left k [a] = a.left k := by
  simp [left]

end Step

/-- What the methods make of the cell, one after the other. -/
def after (call : μ → κ → β → β × ρ) (k : κ) (ms : List μ) (x : β) : β :=
  ms.foldl (fun x m => (call m k x).1) x

@[simp] theorem after_append (call : μ → κ → β → β × ρ) (k : κ) (ms ns : List μ) (x : β) :
    after call k (ms ++ ns) x = after call k ns (after call k ms x) :=
  List.foldl_append

@[simp] theorem after_singleton (call : μ → κ → β → β × ρ) (k : κ) (m : μ) (x : β) :
    after call k [m] x = (call m k x).1 := rfl

section Serial

variable {call : μ → κ → β → β × ρ}

/-- A cell is between two of its calls, or in one that has it to itself. -/
structure SerialAt (call : μ → κ → β → β × ρ) (k : κ) (x : β) (begun : Nat) (returned : List μ)
    (cell : Cell β) : Prop where
  count : cell.running + returned.length = begun
  alone : cell.running ≤ 1
  settled : cell.running = 0 → cell.memory = after call k returned x
  under : cell.running = 1 → cell.clean = true ∧ cell.entry = after call k returned x

variable [DecidableEq κ] {start : κ → β} {log : List (Access κ μ β ρ)} {c c' : κ → Cell β}
  {a : Access κ μ β ρ}

/-- No two calls overlap on a cell. -/
def Serial (call : μ → κ → β → β × ρ) (start : κ → β) (log : List (Access κ μ β ρ))
    (c : κ → Cell β) : Prop :=
  ∀ k, SerialAt call k (start k) (entered k log) (left k log) (c k)

theorem Serial.nil (call : μ → κ → β → β × ρ) (start : κ → β) :
    Serial call start [] fun k => Cell.idle (start k) :=
  fun _ => ⟨rfl, Nat.zero_le 1, fun _ => rfl, fun h => by cases h⟩

/-- A step changes the cell it is about, and the log of that cell. -/
theorem Serial.update (h : Serial call start log c) {k : κ} {cell : Cell β}
    (hother : ∀ k', k' ≠ k → a.entered k' = 0 ∧ a.left k' = [])
    (hcell : SerialAt call k (start k) (entered k log + a.entered k) (left k log ++ a.left k)
      cell) : Serial call start (log ++ [a]) (Function.update c k cell) := by
  intro k'
  rw [left_append, left_singleton, entered_append, entered_singleton]
  by_cases hk' : k' = k
  · subst hk'
    rwa [Function.update_self]
  · obtain ⟨hentered, hleft⟩ := hother k' hk'
    rw [Function.update_of_ne hk', hentered, hleft, List.append_nil, Nat.add_zero]
    exact h k'

theorem Serial.step (h : Serial call start log c) (hstep : Step call c a c')
    (hfree : ∀ m k, a = .enter m k → (c k).running = 0) :
    Serial call start (log ++ [a]) c' := by
  cases hstep with
  | enter m k =>
    have hidle := hfree m k rfl
    have hcount := (h k).count
    refine h.update (fun k' hk' => ⟨if_neg hk'.symm, rfl⟩) ?_
    simp only [Access.left, Access.entered, if_pos, List.append_nil]
    refine ⟨?_, ?_, ?_, fun _ => ⟨decide_eq_true hidle, (h k).settled hidle⟩⟩
    · dsimp only
      omega
    · dsimp only
      omega
    · intro hrunning
      cases hrunning
  | store k x hrunning =>
    refine h.update (fun k' hk' => ⟨rfl, rfl⟩) ?_
    simp only [Access.left, Access.entered, List.append_nil, Nat.add_zero]
    refine ⟨(h k).count, (h k).alone, fun hidle => ?_, (h k).under⟩
    exact absurd hidle (Nat.ne_of_gt hrunning)
  | leave m k x answer hrunning hclean =>
    have hcount := (h k).count
    have halone := (h k).alone
    obtain ⟨hclean', hentry⟩ := (h k).under (by omega)
    have hleft : (Access.leave m k answer : Access κ μ β ρ).left k = [m] := if_pos rfl
    refine h.update (fun k' hk' => ⟨rfl, if_neg hk'.symm⟩) ?_
    rw [hleft]
    refine ⟨?_, ?_, fun _ => ?_, fun hrunning' => ?_⟩
    · simp only [List.length_append, List.length_singleton, Access.entered]
      omega
    · dsimp only
      omega
    · rw [after_append, after_singleton, ← hentry]
      exact congrArg Prod.fst (hclean hclean')
    · dsimp only at hrunning'
      omega
  | load k =>
    intro k'
    rw [left_append, left_singleton, entered_append, entered_singleton]
    exact (List.append_nil (left k' log)).symm ▸ h k'

/-- The accesses of a step that may leave the memory alone. -/
theorem Serial.moves (h : Serial call start log c) {a? : Option (Access κ μ β ρ)}
    (hmoves : Moves call c a? c')
    (hfree : ∀ m k, a? = some (.enter m k) → (c k).running = 0) :
    Serial call start (log ++ a?.toList) c' := by
  cases a? with
  | none =>
    obtain rfl : c' = c := hmoves
    rwa [Option.toList_none, List.append_nil]
  | some a => exact h.step hmoves fun m k ha => hfree m k (congrArg some ha)

/-- What is read of a cell that nobody has. -/
theorem Serial.load (h : Serial call start log c) {k : κ} {x : β}
    (hstep : Step call c (.load k x) c') (hidle : (c k).running = 0) :
    x = after call k (left k log) (start k) := by
  cases hstep with
  | load _ => exact (h k).settled hidle

end Serial

end Nrtb.Cells
