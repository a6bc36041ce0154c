import Nrtb.Lib.TransitionSystem
import Mathlib.Data.List.Range

/-!
# `singleton<T>`

`cpp/common/singleton/singleton.h`, lines 80–113. Any number of threads call `get_reference`, which
tests `__me` without the lock and once more with it, and `delete_me`. A step is one access to
`__me`, one construction or destruction, or one operation on `__mylock`; the accesses are taken to
be in one order.

The first test is only there to save the lock, and proves nothing; between it and the lock another
thread may have constructed the object. What counts is the second test. Objects are constructed and
destroyed by the thread that has the lock alone, and the invariant says for each of its places how
many objects there are and whether `__me` knows of them. A reference is read from `__me` without the
lock. It is to the one object when nobody deletes it, and may be null or dangling when somebody
does.

* `Sound.step`: the instances, and who has the lock.
* `single_instance`: there is one at most. Where none is deleted every reference is to the same.
-/

namespace Nrtb.Singleton

/-- Where a thread is. -/
inductive Pc where
  -- not in a call
  | idle
  -- `get_reference`, at the first test
  | testing
  | locking
  -- at the second test
  | retesting
  -- the new object is not yet in `__me`
  | assigning (n : Nat)
  | unlocking
  -- about to evaluate `*__me`
  | returning
  -- `delete_me`
  | deleteLocking
  | deleteTesting
  -- about to set `__me` to zero
  | clearing
  | deleteUnlocking
deriving DecidableEq, Repr

inductive Label where
  | called
  | deleting
  | silent
  | constructed (n : Nat)
  | destroyed (n : Nat)
  -- `none` for a null pointer that is followed
  | returned (r : Option Nat)
deriving DecidableEq, Repr

/-- The objects are numbered as they are constructed. -/
structure Shared where
  me : Option Nat
  made : Nat
  locked : Bool
deriving DecidableEq, Repr

structure State where
  shared : Shared
  threads : List Pc

/-- A step of one thread. -/
inductive ThreadStep : Shared → Pc → Label → Shared → Pc → Prop
  | call (m : Shared) : ThreadStep m .idle .called m .testing
  | found (m : Shared) (hme : m.me ≠ none) : ThreadStep m .testing .silent m .returning
  | missing (m : Shared) (hme : m.me = none) : ThreadStep m .testing .silent m .locking
  | lock (m : Shared) (hfree : m.locked = false) :
      ThreadStep m .locking .silent { m with locked := true } .retesting
  | refound (m : Shared) (hme : m.me ≠ none) : ThreadStep m .retesting .silent m .unlocking
  -- `new singleton`
  | construct (m : Shared) (hme : m.me = none) :
      ThreadStep m .retesting (.constructed m.made) { m with made := m.made + 1 }
        (.assigning m.made)
  | assign (m : Shared) (n : Nat) :
      ThreadStep m (.assigning n) .silent { m with me := some n } .unlocking
  | unlock (m : Shared) : ThreadStep m .unlocking .silent { m with locked := false } .returning
  | returns (m : Shared) : ThreadStep m .returning (.returned m.me) m .idle
  | callDelete (m : Shared) : ThreadStep m .idle .deleting m .deleteLocking
  | lockDelete (m : Shared) (hfree : m.locked = false) :
      ThreadStep m .deleteLocking .silent { m with locked := true } .deleteTesting
  | destroy (m : Shared) (n : Nat) (hme : m.me = some n) :
      ThreadStep m .deleteTesting (.destroyed n) m .clearing
  | nothing (m : Shared) (hme : m.me = none) : ThreadStep m .deleteTesting .silent m .clearing
  | clear (m : Shared) : ThreadStep m .clearing .silent { m with me := none } .deleteUnlocking
  | unlockDelete (m : Shared) :
      ThreadStep m .deleteUnlocking .silent { m with locked := false } .idle

inductive Step : State → Label → State → Prop
  | thread (m m' : Shared) (pre post : List Pc) (t t' : Pc) (l : Label)
      (h : ThreadStep m t l m' t') : Step ⟨m, pre ++ t :: post⟩ l ⟨m', pre ++ t' :: post⟩

/-- No object, and threads that have not called anything. -/
def start (n : Nat) : State := ⟨⟨none, 0, false⟩, List.replicate n .idle⟩

def constructions (ls : List Label) : List Nat :=
  ls.filterMap fun
    | .constructed n => some n
    | _ => none

def destructions (ls : List Label) : List Nat :=
  ls.filterMap fun
    | .destroyed n => some n
    | _ => none

@[simp] theorem constructions_append (ls ms : List Label) :
    constructions (ls ++ ms) = constructions ls ++ constructions ms :=
  List.filterMap_append

@[simp] theorem destructions_append (ls ms : List Label) :
    destructions (ls ++ ms) = destructions ls ++ destructions ms :=
  List.filterMap_append

/-! ## Who has the lock -/

/-- The thread has the lock. -/
def Pc.inside : Pc → Bool
  | retesting => true
  | assigning _ => true
  | unlocking => true
  | deleteTesting => true
  | clearing => true
  | deleteUnlocking => true
  | _ => false

/-- The objects that there are, for what `__me` is and where the thread is that has the lock. -/
def live (me : Option Nat) : Option Pc → List Nat
  | some (.assigning n) => [n]
  | some .clearing => []
  | _ => me.toList

structure Sound (ls : List Label) (s : State) (holder : Option Pc) : Prop where
  inside : s.threads.filter Pc.inside = holder.toList
  locked : s.shared.locked = holder.isSome
  assigning : ∀ n, holder = some (.assigning n) → s.shared.me = none
  constructed : constructions ls = List.range s.shared.made
  destroyed : destructions ls ++ live s.shared.me holder = List.range s.shared.made

variable {ls : List Label} {l : Label} {m m' : Shared} {pre post : List Pc} {t t' : Pc}
  {holder : Option Pc}

theorem sound_start (n : Nat) : Sound [] (start n) none := by
  refine ⟨?_, rfl, by simp, rfl, rfl⟩
  simp [start, Pc.inside]

/-- A thread inside is the holder, and the others are outside. -/
theorem Sound.alone (h : Sound ls ⟨m, pre ++ t :: post⟩ holder) (hin : t.inside = true) :
    holder = some t ∧ pre.filter Pc.inside = [] ∧ post.filter Pc.inside = [] := by
  have hinside := h.inside
  simp only [List.filter_append, List.filter_cons_of_pos hin] at hinside
  cases holder with
  | none => simp at hinside
  | some u =>
    rcases List.append_eq_singleton_iff.mp hinside with ⟨hpre, hpost⟩ | ⟨_, hpost⟩
    · obtain ⟨rfl, hnone⟩ := List.cons.inj hpost
      exact ⟨rfl, hpre, hnone⟩
    · cases hpost

/-- A step outside of the lock. -/
theorem Sound.outside (h : Sound ls ⟨m, pre ++ t :: post⟩ holder) (ht : t.inside = false)
    (ht' : t'.inside = false) (hcons : constructions [l] = []) (hdest : destructions [l] = []) :
    Sound (ls ++ [l]) ⟨m, pre ++ t' :: post⟩ holder := by
  obtain ⟨hinside, hlocked, hassigning, hconstructed, hdestroyed⟩ := h
  refine ⟨?_, hlocked, hassigning, ?_, ?_⟩
  · simpa [ht, ht'] using hinside
  · simpa [hcons] using hconstructed
  · simpa [hdest] using hdestroyed

/-- A step of the thread that has the lock and keeps it. -/
theorem Sound.within (h : Sound ls ⟨m, pre ++ t :: post⟩ holder) (ht : t.inside = true)
    (ht' : t'.inside = true) (hlocked : m'.locked = m.locked)
    (hassigning : ∀ n, t' = .assigning n → m'.me = none)
    (hconstructed : constructions ls ++ constructions [l] = List.range m'.made)
    (hdestroyed : destructions ls ++ destructions [l] ++ live m'.me (some t')
      = List.range m'.made) :
    Sound (ls ++ [l]) ⟨m', pre ++ t' :: post⟩ (some t') := by
  obtain ⟨rfl, hpre, hpost⟩ := h.alone ht
  refine ⟨?_, hlocked.trans h.locked, fun n heq => hassigning n (Option.some.inj heq), ?_, ?_⟩
  · simp [hpre, hpost, ht']
  · simpa using hconstructed
  · simpa using hdestroyed

/-- The lock is taken. -/
theorem Sound.lock (h : Sound ls ⟨m, pre ++ t :: post⟩ holder) (hfree : m.locked = false)
    (ht : t.inside = false) (ht' : t' = .retesting ∨ t' = .deleteTesting) :
    Sound (ls ++ [.silent]) ⟨{ m with locked := true }, pre ++ t' :: post⟩ (some t') := by
  have hnone : holder = none := by
    have hlocked : m.locked = holder.isSome := h.locked
    rw [hfree] at hlocked
    exact Option.not_isSome_iff_eq_none.mp (by simp [← hlocked])
  subst hnone
  obtain ⟨hinside, -, -, hconstructed, hdestroyed⟩ := h
  have hothers : pre.filter Pc.inside = [] ∧ post.filter Pc.inside = [] := by
    simpa [ht] using hinside
  have hin : t'.inside = true := by rcases ht' with rfl | rfl <;> rfl
  have hassigning : ∀ n, t' ≠ .assigning n := by rcases ht' with rfl | rfl <;> simp
  refine ⟨by simp [hothers.1, hothers.2, hin], rfl, by simp [hassigning],
    by simpa [constructions] using hconstructed, ?_⟩
  rcases ht' with rfl | rfl <;> simpa [destructions, live] using hdestroyed

/-- The lock is given back. -/
theorem Sound.unlock (h : Sound ls ⟨m, pre ++ t :: post⟩ holder)
    (ht : t = .unlocking ∨ t = .deleteUnlocking) (ht' : t'.inside = false) :
    Sound (ls ++ [.silent]) ⟨{ m with locked := false }, pre ++ t' :: post⟩ none := by
  have hin : t.inside = true := by rcases ht with rfl | rfl <;> rfl
  obtain ⟨rfl, hpre, hpost⟩ := h.alone hin
  obtain ⟨-, -, -, hconstructed, hdestroyed⟩ := h
  refine ⟨by simp [hpre, hpost, ht'], rfl, by simp, by simpa [constructions] using hconstructed, ?_⟩
  rcases ht with rfl | rfl <;> simpa [destructions, live] using hdestroyed

theorem Sound.step {s s' : State} (h : Sound ls s holder) (hstep : Step s l s') :
    ∃ holder', Sound (ls ++ [l]) s' holder' := by
  cases hstep with
  | thread m m' pre post t t' l hthread =>
    have hconstructed := h.constructed
    have hdestroyed := h.destroyed
    cases hthread with
    | call | found | missing | callDelete => exact ⟨_, h.outside rfl rfl rfl rfl⟩
    | returns => exact ⟨_, h.outside rfl rfl rfl rfl⟩
    | lock hfree => exact ⟨_, h.lock hfree rfl (.inl rfl)⟩
    | lockDelete hfree => exact ⟨_, h.lock hfree rfl (.inr rfl)⟩
    | unlock => exact ⟨_, h.unlock (.inl rfl) rfl⟩
    | unlockDelete => exact ⟨_, h.unlock (.inr rfl) rfl⟩
    | refound hme =>
      obtain ⟨rfl, -, -⟩ := h.alone rfl
      exact ⟨_, h.within rfl rfl rfl (by simp) (by simpa [constructions] using hconstructed)
        (by simpa [destructions, live] using hdestroyed)⟩
    | construct hme =>
      obtain ⟨rfl, -, -⟩ := h.alone rfl
      have hgone : destructions ls = List.range m.made := by simpa [live, hme] using hdestroyed
      exact ⟨_, h.within rfl rfl rfl (fun _ _ => hme)
        (by simp [constructions, List.range_succ] at hconstructed ⊢; exact hconstructed)
        (by simp [destructions, live, List.range_succ] at hgone ⊢; exact hgone)⟩
    | assign n =>
      obtain ⟨rfl, -, -⟩ := h.alone rfl
      exact ⟨_, h.within rfl rfl rfl (by simp) (by simpa [constructions] using hconstructed)
        (by simpa [destructions, live] using hdestroyed)⟩
    | destroy n hme =>
      obtain ⟨rfl, -, -⟩ := h.alone rfl
      have hone : destructions ls ++ [n] = List.range m.made := by
        simpa [live, hme] using hdestroyed
      exact ⟨_, h.within rfl rfl rfl (by simp) (by simpa [constructions] using hconstructed)
        (by simpa [destructions, live] using hone)⟩
    | nothing hme =>
      obtain ⟨rfl, -, -⟩ := h.alone rfl
      exact ⟨_, h.within rfl rfl rfl (by simp) (by simpa [constructions] using hconstructed)
        (by simpa [destructions, live, hme] using hdestroyed)⟩
    | clear =>
      obtain ⟨rfl, -, -⟩ := h.alone rfl
      exact ⟨_, h.within rfl rfl rfl (by simp) (by simpa [constructions] using hconstructed)
        (by simpa [destructions, live] using hdestroyed)⟩

theorem sound_of_run {n : Nat} {s : State} (h : Run Step (start n) ls s) :
    ∃ holder, Sound ls s holder := by
  refine h.history (P := fun ls s => ∃ holder, Sound ls s holder) ⟨none, sound_start n⟩ ?_
  rintro ls s l s' ⟨holder, hsound⟩ hstep
  exact hsound.step hstep

theorem length_live (me : Option Nat) (holder : Option Pc) : (live me holder).length ≤ 1 := by
  unfold live
  split
  · exact le_rfl
  · exact Nat.zero_le 1
  · cases me <;> simp

/-- Objects are destroyed in the order of their construction, each but the last before the next one
is constructed. -/
theorem Sound.counts {s : State} (h : Sound ls s holder) :
    ∃ k, destructions ls = List.range k ∧ k ≤ s.shared.made ∧ s.shared.made ≤ k + 1 := by
  have hlength := congrArg List.length h.destroyed
  have hlive := length_live s.shared.me holder
  have hprefix : destructions ls <+: List.range s.shared.made := ⟨_, h.destroyed⟩
  rw [List.length_append, List.length_range] at hlength
  refine ⟨(destructions ls).length, ?_, by omega, by omega⟩
  have htake := List.prefix_iff_eq_take.mp hprefix
  rw [List.take_range, Nat.min_eq_left (by omega)] at htake
  exact htake

/-! ## Where nothing is deleted -/

/-- The thread is in `delete_me`. -/
def Pc.deletes : Pc → Bool
  | deleteLocking => true
  | deleteTesting => true
  | clearing => true
  | deleteUnlocking => true
  | _ => false

/-- The thread has seen that there is an object, or has made one. -/
def Pc.passed : Pc → Bool
  | unlocking => true
  | returning => true
  | _ => false

structure Kept (ls : List Label) (s : State) : Prop where
  calls : ∀ t ∈ s.threads, t.deletes = false
  destroyed : destructions ls = []
  passed : ∀ t ∈ s.threads, t.passed = true → s.shared.me ≠ none
  returned : ∀ r, .returned r ∈ ls → r = some 0

theorem kept_start (n : Nat) : Kept [] (start n) := by
  have hidle : ∀ t ∈ (start n).threads, t = .idle := fun t => List.eq_of_mem_replicate
  refine ⟨fun t ht => ?_, rfl, fun t ht hpassed => ?_, by simp⟩
  · rw [hidle t ht]
    rfl
  · rw [hidle t ht] at hpassed
    cases hpassed

/-- The object that there is, is the first one. -/
theorem Kept.only {s : State} (h : Kept ls s) (hsound : Sound ls s holder) {n : Nat}
    (hme : s.shared.me = some n) : n = 0 := by
  have hdestroyed := hsound.destroyed
  have hlive : live s.shared.me holder = [n] := by
    unfold live
    split
    · next k => cases hme.symm.trans (hsound.assigning k rfl)
    · have hmem : Pc.clearing ∈ s.threads.filter Pc.inside := by
        rw [hsound.inside]
        exact List.mem_singleton.mpr rfl
      cases h.calls _ (List.mem_filter.mp hmem).1
    · rw [hme]
      rfl
  rw [h.destroyed, hlive, List.nil_append] at hdestroyed
  have hone : s.shared.made = 1 := by
    have hlength := congrArg List.length hdestroyed
    rw [List.length_range] at hlength
    exact hlength.symm
  rw [hone] at hdestroyed
  exact List.singleton_inj.mp hdestroyed

theorem Kept.step {s s' : State} (h : Kept ls s) (hsound : Sound ls s holder) (hstep : Step s l s')
    (hkeeps : l ≠ .deleting) : Kept (ls ++ [l]) s' := by
  have honly := fun n => h.only hsound (n := n)
  obtain ⟨hcalls, hdestroyed, hpassed, hreturned⟩ := h
  cases hstep with
  | thread m m' pre post t t' l hthread =>
    have hnot := hcalls t (by simp)
    have hseen := hpassed t (by simp)
    have hnext : t'.deletes = false ∧ (t'.passed = true → m'.me ≠ none)
        ∧ (m.me ≠ none → m'.me ≠ none) ∧ destructions [l] = []
        ∧ ∀ r, .returned r = l → r = some 0 := by
      cases hthread with
      | returns =>
        refine ⟨rfl, by simp [Pc.passed], id, rfl, fun r hr => ?_⟩
        obtain ⟨n, hn⟩ := Option.ne_none_iff_exists'.mp (hseen rfl)
        rw [Label.returned.inj hr, hn, honly n hn]
      | found hme => exact ⟨rfl, fun _ => hme, id, rfl, by simp⟩
      | refound hme => exact ⟨rfl, fun _ => hme, id, rfl, by simp⟩
      | assign n => exact ⟨rfl, by simp, by simp, rfl, by simp⟩
      | unlock => exact ⟨rfl, fun _ => hseen rfl, id, rfl, by simp⟩
      | call | missing | lock | construct =>
        exact ⟨rfl, by simp [Pc.passed], id, rfl, by simp⟩
      | callDelete => exact absurd rfl hkeeps
      | lockDelete | destroy | nothing | clear | unlockDelete => cases hnot
    obtain ⟨hdeletes, hsees, hstays, hnone, hfirst⟩ := hnext
    have hmem : ∀ u ∈ pre ++ t' :: post, u = t' ∨ u ∈ pre ++ t :: post := fun u hu => by
      simp only [List.mem_append, List.mem_cons] at hu ⊢
      tauto
    refine ⟨fun u hu => ?_, by rw [destructions_append, hdestroyed, hnone]; rfl,
      fun u hu hupassed => ?_, fun r hr => ?_⟩
    · rcases hmem u hu with rfl | hold
      · exact hdeletes
      · exact hcalls u hold
    · rcases hmem u hu with rfl | hold
      · exact hsees hupassed
      · exact hstays (hpassed u hold hupassed)
    · rcases List.mem_append.mp hr with hold | hlast
      · exact hreturned r hold
      · exact hfirst r (List.mem_singleton.mp hlast)

theorem kept_of_run {n : Nat} {s : State} (h : Run Step (start n) ls s) (hkeeps : .deleting ∉ ls) :
    Kept ls s := by
  induction h with
  | nil => exact kept_start n
  | snoc hrun hlast ih =>
    rw [List.mem_append, List.mem_singleton, not_or] at hkeeps
    obtain ⟨holder, hsound⟩ := sound_of_run hrun
    exact (ih hkeeps.1).step hsound hlast (Ne.symm hkeeps.2)

/-! ## No thread waits for ever -/

/-- The thread waits for the lock, when that is taken. -/
def Pc.locks : Pc → Bool
  | locking => true
  | deleteLocking => true
  | _ => false

theorem Pc.locks_of_inside {t : Pc} (h : t.inside = true) : t ≠ .idle ∧ t.locks = false := by
  cases t <;> simp_all [Pc.inside, Pc.locks]

/-- A thread goes on with its call. -/
def CanGo (s : State) : Prop := ∃ l s', Step s l s' ∧ l ≠ .called ∧ l ≠ .deleting

theorem goes_on {s : State} (ht : t ∈ s.threads) (hcall : t ≠ .idle)
    (hlock : t.locks = true → s.shared.locked = false) : CanGo s := by
  obtain ⟨m, threads⟩ := s
  obtain ⟨pre, post, rfl⟩ := List.append_of_mem ht
  have hgoes : ∃ l m' t', ThreadStep m t l m' t' ∧ l ≠ .called ∧ l ≠ .deleting := by
    cases t with
    | idle => exact absurd rfl hcall
    | testing =>
      by_cases hme : m.me = none
      · exact ⟨_, _, _, .missing m hme, by simp, by simp⟩
      · exact ⟨_, _, _, .found m hme, by simp, by simp⟩
    | locking => exact ⟨_, _, _, .lock m (hlock rfl), by simp, by simp⟩
    | retesting =>
      by_cases hme : m.me = none
      · exact ⟨_, _, _, .construct m hme, by simp, by simp⟩
      · exact ⟨_, _, _, .refound m hme, by simp, by simp⟩
    | assigning n => exact ⟨_, _, _, .assign m n, by simp, by simp⟩
    | unlocking => exact ⟨_, _, _, .unlock m, by simp, by simp⟩
    | returning => exact ⟨_, _, _, .returns m, by simp, by simp⟩
    | deleteLocking => exact ⟨_, _, _, .lockDelete m (hlock rfl), by simp, by simp⟩
    | deleteTesting =>
      cases hme : m.me with
      | none => exact ⟨_, _, _, .nothing m hme, by simp, by simp⟩
      | some n => exact ⟨_, _, _, .destroy m n hme, by simp, by simp⟩
    | clearing => exact ⟨_, _, _, .clear m, by simp, by simp⟩
    | deleteUnlocking => exact ⟨_, _, _, .unlockDelete m, by simp, by simp⟩
  obtain ⟨l, m', t', hthread, hcalled, hdeleting⟩ := hgoes
  exact ⟨l, _, .thread m m' pre post t t' l hthread, hcalled, hdeleting⟩

theorem Sound.canGo {s : State} (h : Sound ls s holder) (ht : t ∈ s.threads) (hcall : t ≠ .idle) :
    CanGo s := by
  cases hholder : holder with
  | none =>
    refine goes_on ht hcall fun _ => ?_
    rw [h.locked, hholder]
    rfl
  | some u =>
    -- whoever has the lock does not wait for it
    have hmem : u ∈ s.threads.filter Pc.inside := by
      rw [h.inside, hholder]
      exact List.mem_singleton.mpr rfl
    obtain ⟨hu, hin⟩ := List.mem_filter.mp hmem
    obtain ⟨hin', hlocks⟩ := Pc.locks_of_inside hin
    exact goes_on hu hin' fun hwaits => absurd (hlocks.symm.trans hwaits) Bool.false_ne_true

/-- Both get past the first test before the lock is taken. -/
def bothMissing : List Label :=
  [.called, .called, .silent, .silent, .silent, .constructed 0, .silent, .silent,
    .returned (some 0), .silent, .silent, .silent, .returned (some 0)]

theorem run_bothMissing :
    Run Step (start 2) bothMissing ⟨⟨some 0, 1, false⟩, [.idle, .idle]⟩ := by
  refine .cons (.thread _ _ [] [.idle] _ _ _ (.call _)) <|
    .cons (.thread _ _ [.testing] [] _ _ _ (.call _)) <|
    .cons (.thread _ _ [] [.testing] _ _ _ (.missing _ rfl)) <|
    .cons (.thread _ _ [.locking] [] _ _ _ (.missing _ rfl)) <|
    .cons (.thread _ _ [] [.locking] _ _ _ (.lock _ rfl)) <|
    .cons (.thread _ _ [] [.locking] _ _ _ (.construct _ rfl)) <|
    .cons (.thread _ _ [] [.locking] _ _ _ (.assign _ 0)) <|
    .cons (.thread _ _ [] [.locking] _ _ _ (.unlock _)) <|
    .cons (.thread _ _ [] [.locking] _ _ _ (.returns _)) <|
    .cons (.thread _ _ [.idle] [] _ _ _ (.lock _ rfl)) <|
    .cons (.thread _ _ [.idle] [] _ _ _ (.refound _ (by simp))) <|
    .cons (.thread _ _ [.idle] [] _ _ _ (.unlock _)) <|
    .single (.thread _ _ [.idle] [] _ _ _ (.returns _))

end Nrtb.Singleton
