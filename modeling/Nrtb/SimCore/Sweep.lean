import Nrtb.SimCore.Basic
import Nrtb.Lib.TransitionSystem

/-!
# The sweep and its iterator

The range-for of `turn_init` that erases the dead (`cpp/sim_engine/sim_core/sim_core.cpp`, lines
267–284), with the iterator that it advances. `std::map` keeps the iterators of other elements valid
when one is erased, and not those of the element itself. The loop erases the element that its
iterator refers to, and advances that iterator at the end of the round, to wherever `Dangling` has
it.

`turnInit` computes its outcome with a function on the entries, `sweepLoop`, because the other
modules need a value. Here the same loop is a relation on steps, so that it can be asked which
iterator is advanced when; `run_sweepLoop` says that the two are one loop.

* `run_sweepLoop`: `sweepLoop` is this loop: it comes to an end with the same map, or to an iterator
  that leads nowhere. By induction on the size of the map, which every erased entry makes smaller,
  with the rounds of the living ones in between (`run_living`).
* `Visited.step`: as long as nobody is dead the loop visits entry after entry.
* `safe_sweep_iff`: no iterator is advanced whose element has been erased only if nobody is dead,
  wherever `++` would lead. So the loop is right exactly when it has nothing to do.
-/

namespace Nrtb.SimCore

/-! ## The loop -/

/-- Where the loop is. -/
inductive SweepPc where
  -- the iterator has reached the entry
  | body (a : Nat × Object)
  -- before the `++` at the end of the round
  | advance (a : Nat × Object)
  | finished

/-- An iterator that refers to an entry, or is `end()`. -/
def SweepPc.at : Option (Nat × Object) → SweepPc
  | some a => body a
  | none => finished

structure Sweeping where
  pc : SweepPc
  objects : OrdMap Nat Object

/-- `begin()` -/
def Sweeping.start (objects : OrdMap Nat Object) : Sweeping := ⟨.at objects.entries.head?, objects⟩

variable (d : Dangling) (alive : Object → Bool)

/-- The steps of the loop; the label is the entry visited. -/
inductive SweepStep : Sweeping → Option (Nat × Object) → Sweeping → Prop
  | keep (a : Nat × Object) (objects : OrdMap Nat Object) (halive : alive a.2 = true) :
      SweepStep ⟨.body a, objects⟩ (some a) ⟨.advance a, objects⟩
  | erase (a : Nat × Object) (objects : OrdMap Nat Object) (hdead : alive a.2 = false) :
      SweepStep ⟨.body a, objects⟩ (some a) ⟨.advance a, objects.erase a.1⟩
  | advance (a : Nat × Object) (objects : OrdMap Nat Object)
      (hvalid : objects.find? a.1 ≠ none) :
      SweepStep ⟨.advance a, objects⟩ none ⟨.at (objects.above a.1), objects⟩
  -- `++` on an iterator whose element has been erased
  | dangle (a : Nat × Object) (objects : OrdMap Nat Object) (i : Nat)
      (herased : objects.find? a.1 = none) (hleads : d objects a = some i) :
      SweepStep ⟨.advance a, objects⟩ none ⟨.at objects.entries[i]?, objects⟩

/-- The entries visited. -/
def visits (ls : List (Option (Nat × Object))) : List (Nat × Object) := ls.filterMap id

/-! ## `sweepLoop` -/

variable {d alive} {objects : OrdMap Nat Object} {ls : List (Option (Nat × Object))}
  {l : Option (Nat × Object)} {t t' : Sweeping} {pre rest : List (Nat × Object)}

/-- Behind an entry of the map comes the next one. -/
theorem above_of_entries {a : Nat × Object} (h : objects.entries = pre ++ a :: rest) :
    objects.above a.1 = rest.head? := by
  have hsorted := objects.sorted
  rw [h, List.pairwise_append, List.pairwise_cons] at hsorted
  obtain ⟨_, ⟨hbehind, _⟩, hbefore⟩ := hsorted
  have hentries : objects.entries = (pre ++ [a]) ++ rest := by rw [h]; simp
  refine OrdMap.above_eq hentries (fun p hp => ?_) hbehind
  rcases List.mem_append.mp hp with hp | hp
  · exact (hbefore p hp a List.mem_cons_self).le
  · rw [List.mem_singleton.mp hp]

/-- The rounds of living entries. -/
theorem run_living {front post : List (Nat × Object)}
    (h : objects.entries = pre ++ (front ++ post)) (halive : ∀ a ∈ front, alive a.2 = true) :
    ∃ ms, Run (SweepStep d alive) ⟨.at (front ++ post).head?, objects⟩ ms
      ⟨.at post.head?, objects⟩ := by
  induction front generalizing pre with
  | nil => exact ⟨[], .nil⟩
  | cons a front ih =>
    have hfind : objects.find? a.1 = some a.2 := by
      rw [← OrdMap.mem_entries_iff, h]
      simp
    have hkeep : SweepStep d alive ⟨.body a, objects⟩ (some a) ⟨.advance a, objects⟩ :=
      .keep a objects (halive a List.mem_cons_self)
    have habove : objects.above a.1 = (front ++ post).head? := above_of_entries h
    have hadvance : SweepStep d alive ⟨.advance a, objects⟩ none
        ⟨.at (front ++ post).head?, objects⟩ := by
      rw [← habove]
      exact .advance a objects (by rw [hfind]; exact nofun)
    have hentries : objects.entries = (pre ++ [a]) ++ (front ++ post) := by
      rw [h, List.append_assoc]
      rfl
    obtain ⟨ms, hrun⟩ := ih hentries fun b hb => halive b (List.mem_cons_of_mem _ hb)
    exact ⟨_, .cons hkeep (.cons hadvance hrun)⟩

/-- `sweepLoop` is the loop, from any position on: it comes to an end with this map, or to an
iterator that leads nowhere. -/
theorem run_sweepLoop (h : objects.entries = pre ++ rest) :
    match sweepLoop d alive objects.size rest objects with
    | some swept => ∃ ms, Run (SweepStep d alive) ⟨.at rest.head?, objects⟩ ms ⟨.finished, swept⟩
    | none => ∃ ms a left, Run (SweepStep d alive) ⟨.at rest.head?, objects⟩ ms ⟨.advance a, left⟩
      ∧ left.find? a.1 = none ∧ d left a = none := by
  generalize hsize : objects.size = size
  induction size generalizing pre rest objects with
  | zero =>
    obtain rfl : rest = [] := by
      have hlength := congrArg List.length h
      rw [List.length_append] at hlength
      exact List.eq_nil_of_length_eq_zero (by rw [OrdMap.size] at hsize; omega)
    exact ⟨[], .nil⟩
  | succ size ih =>
    rw [sweepLoop]
    cases hfirst : firstDead alive rest with
    | none =>
      have hentries : objects.entries = pre ++ (rest ++ []) := by rw [h, List.append_nil]
      obtain ⟨ms, hrun⟩ := run_living (d := d) hentries (firstDead_eq_none_iff.mp hfirst)
      rw [List.append_nil] at hrun
      exact ⟨ms, hrun⟩
    | some a =>
      obtain ⟨hdead, front, post, rfl, hfront⟩ := List.find?_eq_some_iff_append.mp hfirst
      have hentries : objects.entries = (pre ++ front) ++ a :: post := by
        rw [h, List.append_assoc]
      obtain ⟨ms, hliving⟩ := run_living (d := d) h fun b hb => by simpa using hfront b hb
      have herase : SweepStep d alive ⟨.body a, objects⟩ (some a)
          ⟨.advance a, objects.erase a.1⟩ := .erase a objects (by simpa using hdead)
      have hgone : (objects.erase a.1).find? a.1 = none := by
        rw [OrdMap.find?_erase, if_pos rfl]
      dsimp only
      cases hleads : d (objects.erase a.1) a with
      | none => exact ⟨_, a, _, hliving.snoc herase, hgone, hleads⟩
      | some i =>
        have hdangle : SweepStep d alive ⟨.advance a, objects.erase a.1⟩ none
            ⟨.at ((objects.erase a.1).entries.drop i).head?, objects.erase a.1⟩ := by
          rw [List.head?_drop]
          exact .dangle a _ i hgone hleads
        have hleft : (objects.erase a.1).size = size := by
          have hin : a ∈ objects.entries := by rw [hentries]; simp
          have hsmaller := size_erase hin
          omega
        have hrest := ih (List.take_append_drop i (objects.erase a.1).entries).symm hleft
        have hbefore := (hliving.snoc herase).snoc hdangle
        rw [Option.bind_some]
        cases hloop : sweepLoop d alive size ((objects.erase a.1).entries.drop i)
            (objects.erase a.1) with
        | some swept =>
          rw [hloop] at hrest
          obtain ⟨ms', hrun⟩ := hrest
          exact ⟨_, hbefore.append hrun⟩
        | none =>
          rw [hloop] at hrest
          obtain ⟨ms', b, left, hrun, hstuck⟩ := hrest
          exact ⟨_, b, left, hbefore.append hrun, hstuck⟩

/-! ## What has been visited -/

/-- Nobody is dead: the entries are visited in their order, and the map stays as it is. -/
structure Visited (objects : OrdMap Nat Object) (ls : List (Option (Nat × Object)))
    (t : Sweeping) (rest : List (Nat × Object)) : Prop where
  all : objects.entries = visits ls ++ rest
  kept : t.objects = objects
  pc : match t.pc with
    | .body a => rest.head? = some a
    | .advance a => (visits ls).getLast? = some a
    | .finished => rest = []

theorem Visited.start (objects : OrdMap Nat Object) :
    Visited objects [] (.start objects) objects.entries := by
  refine ⟨rfl, rfl, ?_⟩
  rw [Sweeping.start]
  cases objects.entries with
  | nil => rfl
  | cons a rest => rfl

theorem Visited.step (halive : ∀ a ∈ objects.entries, alive a.2 = true)
    (h : Visited objects ls t rest) (hstep : SweepStep d alive t l t') :
    Visited objects (ls ++ [l]) t' (rest.drop (visits [l]).length) := by
  obtain ⟨hall, rfl, hpc⟩ := h
  cases hstep with
  | keep a objects' _ =>
    obtain ⟨rest, rfl⟩ : ∃ rest', rest = a :: rest' := List.head?_eq_some_iff.mp hpc
    refine ⟨?_, rfl, ?_⟩
    · simpa [visits] using hall
    · simp [visits]
  | erase a objects' hdead =>
    obtain ⟨rest, rfl⟩ : ∃ rest', rest = a :: rest' := List.head?_eq_some_iff.mp hpc
    have hup := halive a (by rw [hall]; simp)
    exact absurd (hdead.symm.trans hup) Bool.false_ne_true
  | advance a objects' _ =>
    obtain ⟨pre, hpre⟩ := List.getLast?_eq_some_iff.mp hpc
    have hentries : objects'.entries = pre ++ a :: rest := by
      rw [hall, hpre, List.append_assoc]
      rfl
    have habove : objects'.above a.1 = rest.head? := above_of_entries hentries
    refine ⟨by simpa [visits] using hall, rfl, ?_⟩
    rw [habove]
    cases rest with
    | nil => rfl
    | cons b rest => rfl
  | dangle a objects' i herased _ =>
    have hmem : a ∈ objects'.entries := by
      rw [hall]
      exact List.mem_append_left _ (List.mem_of_getLast? hpc)
    rw [OrdMap.mem_entries_iff.mp hmem] at herased
    cases herased

theorem visited_of_run (halive : ∀ a ∈ objects.entries, alive a.2 = true)
    (hrun : Run (SweepStep d alive) (.start objects) ls t) : ∃ rest, Visited objects ls t rest := by
  refine hrun.history (P := fun ls t => ∃ rest, Visited objects ls t rest)
    ⟨_, Visited.start objects⟩ ?_
  rintro ls t l t' ⟨rest, h⟩ hstep
  exact ⟨_, h.step halive hstep⟩

/-! ## The end of the loop -/

/-- The range-for visits every entry once, never advances an iterator whose element has been
erased, comes to an end, and leaves the entries whose object is alive. -/
structure SafeSweep (d : Dangling) (alive : Object → Bool) (objects : OrdMap Nat Object) :
    Prop where
  valid : ∀ ls t a, Run (SweepStep d alive) (.start objects) ls t → t.pc = .advance a →
    t.objects.find? a.1 ≠ none
  ends : ∃ ls swept, Run (SweepStep d alive) (.start objects) ls ⟨.finished, swept⟩
  all : ∀ ls swept, Run (SweepStep d alive) (.start objects) ls ⟨.finished, swept⟩ →
    visits ls = objects.entries ∧ swept.entries = objects.entries.filter fun a => alive a.2

/-- The range-for is safe when there is nobody to erase, and only then: in the round of a dead entry
the iterator that is advanced next refers to the element that has just been erased. Where everybody
lives, `Visited` follows the loop from entry to entry up to its end. -/
theorem safe_sweep_iff (d : Dangling) (alive : Object → Bool) (objects : OrdMap Nat Object) :
    SafeSweep d alive objects ↔ ∀ a ∈ objects.entries, alive a.2 = true := by
  constructor
  · rintro ⟨hvalid, ⟨ls, swept, hrun⟩, hall⟩ a ha
    rw [← (hall ls swept hrun).1] at ha
    -- the round in which the entry is visited
    obtain ⟨pre, post, rfl⟩ : ∃ pre post, ls = pre ++ some a :: post := by
      obtain ⟨l, hl, hla⟩ := List.mem_filterMap.mp ha
      obtain rfl : l = some a := hla
      exact List.append_of_mem hl
    obtain ⟨t, t', hpre, hvisit, _⟩ := hrun.split
    have hafter := hpre.snoc hvisit
    cases hvisit with
    | keep _ _ halive => exact halive
    | erase _ objects' _ =>
      exact absurd (by simp) (hvalid _ _ a hafter rfl)
  · intro halive
    refine ⟨?_, ?_, ?_⟩
    · intro ls t a hrun hpc
      obtain ⟨rest, hall, hkept, hlast⟩ := visited_of_run halive hrun
      rw [hpc] at hlast
      have hmem : a ∈ t.objects.entries := by
        rw [hkept, hall]
        exact List.mem_append_left _ (List.mem_of_getLast? hlast)
      rw [OrdMap.mem_entries_iff.mp hmem]
      exact nofun
    · have hrun := @run_sweepLoop d alive objects [] _ (List.nil_append objects.entries).symm
      rw [sweepLoop_of_alive halive] at hrun
      obtain ⟨ms, hrun⟩ := hrun
      exact ⟨ms, objects, hrun⟩
    · intro ls swept hrun
      obtain ⟨rest, hall, rfl, rfl⟩ := visited_of_run halive hrun
      rw [List.append_nil] at hall
      exact ⟨hall.symm, (List.filter_eq_self.mpr halive).symm⟩

/-- One object, which is dead. -/
def loneEntry : OrdMap Nat Object := ⟨[(1, ⟨100, 1⟩)], by simp⟩

/-- The entry is erased, and then the iterator to it is advanced. -/
theorem sweep_advances_erased :
    (∀ d, ∃ ls t, Run (SweepStep d fun _ => false) (.start loneEntry) ls t
        ∧ t.pc = .advance (1, ⟨100, 1⟩) ∧ t.objects.find? 1 = none)
      ∧ ∀ d, ¬ SafeSweep d (fun _ => false) loneEntry := by
  have hrun : ∀ d, Run (SweepStep d fun _ => false) (.start loneEntry) [some (1, ⟨100, 1⟩)]
      ⟨.advance (1, ⟨100, 1⟩), loneEntry.erase 1⟩ := fun d =>
    .single (.erase (1, ⟨100, 1⟩) loneEntry rfl)
  have herased : (loneEntry.erase 1).find? 1 = none := by decide
  exact ⟨fun d => ⟨_, _, hrun d, rfl, herased⟩, fun d h => h.valid _ _ _ (hrun d) rfl herased⟩

end Nrtb.SimCore
