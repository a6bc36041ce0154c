import Nrtb.ConfReader.CommandLine
import Nrtb.Lib.Descent

/-!
# Included configuration files

`cpp/common/confreader/confreader.cpp`, lines 41–101: `read` calls itself on the name of an
`*INCLUDE` line while the file in hand is open, and remembers no file. The files are the nodes of a
graph, the includes that are executed its edges.

A call returns when there is no way round in the part of the graph that it reaches, and calls itself
for ever when there is. A file that is included twice is read twice, which is no harm. The model
bounds the depth of the calls, so that returning is to return at some depth, and the depth that is
needed is the height of the graph (`Lib.Descent`). What is stored is the union of what the files
store themselves, over all files reached.

* `read_done_iff`: how deep the calls of `read` are nested.
* `read_values`: what is stored by a call that returns.
* `read_terminates_iff`: for finitely many files, when a call returns with the values of every file
  that is reached. `read_self_include` is a file that includes itself.
-/

namespace Nrtb

open Descent Relation

namespace ConfReader

/-! ## The include graph -/

/-- The names that the line loop includes, in order, until it is left. -/
def included : List Str → List Str
  | [] => []
  | line :: rest =>
    match lineAction line with
    | .includeFile name => name :: included rest
    | .throws => []
    | .undefined => []
    | _ => included rest

section Graph

variable (fs : Str → Option Str)

/-- The files that are read for a file. -/
def includes (name : Str) : List Str :=
  match fs name with
  | some content => included (inbuffs content)
  | none => []

/-- The pairs that a file inserts itself. -/
def pairsOf (name : Str) : List Pair :=
  match fs name with
  | some content => storedPairs (inbuffs content)
  | none => []

/-- Reading a file stays within the defined behaviour. -/
def FileDefined (name : Str) : Prop := ∀ content ∈ fs name, Defined (inbuffs content)

/-- The file is read for the one at the start, by whatever chain of includes. -/
def Reached (start file : Str) : Prop :=
  start ≠ [] ∧ ReflTransGen (Child (includes fs)) start file

end Graph

/-- The file that a call opens. -/
def startName (fname : Str) (self : ConfReader) : Str :=
  if fname ≠ [] then fname else self.filename

/-- The values that are left of those stored before: a file that can be opened clears them. -/
def kept (fs : Str → Option Str) (fname : Str) (clear : Bool) (self : ConfReader) : List Pair :=
  if clear ∧ startName fname self ≠ [] ∧ (fs (startName fname self)).isSome then []
  else self.values

theorem gsub_ne_nil {target findme putme r : Str} (hput : putme ≠ [])
    (h : gsub target findme putme = .ok r) : r ≠ [] := by
  unfold gsub at h
  split at h
  · cases h
  · next hfind =>
    split at h
    · cases h
    · next htarget =>
      obtain rfl := Except.ok.inj h
      rw [gsubLoop_eq, List.nil_append, List.drop_zero]
      cases target with
      | nil => exact absurd rfl htarget
      | cons c target =>
        rw [Search.replaceFrom]
        split
        · exact List.append_ne_nil_of_left_ne_nil hput _
        · exact List.cons_ne_nil c _

/-- An include names a file. -/
theorem include_ne_nil {line name : Str} (h : lineAction line = .includeFile name) :
    name ≠ [] := by
  simp only [lineAction] at h
  split at h
  · cases h
  · split at h
    · cases h
    · split at h
      · next first second _ hsecond =>
        split at h
        · obtain rfl := LineAction.includeFile.inj h
          exact gsub_ne_nil (by decide) hsecond
        · split at h <;> cases h
      · cases h

/-! ## The line loop -/

section Loop

variable {inc : Str → ConfReader → Outcome ConfReader}

/-- The loop comes to its end when every include does. -/
theorem readLines_done_iff {W : Str → Prop}
    (hinc : ∀ name s, name ≠ [] → ((∃ s', inc name s = .done s') ↔ W name)) (ls : List Str)
    (self : ConfReader) :
    (∃ after, readLines inc ls self = .done after) ↔
      Defined ls ∧ ∀ name ∈ included ls, W name := by
  induction ls generalizing self with
  | nil => simp [readLines, Defined, included]
  | cons line rest ih =>
    rw [readLines, Defined, included]
    cases hact : lineAction line with
    | ignore => exact ih self
    | insertPair p => exact ih _
    | throws => simp
    | undefined => simp
    | includeFile name =>
      simp only [Outcome.bind_eq_done, List.forall_mem_cons]
      rw [← hinc name self (include_ne_nil hact)]
      constructor
      · rintro ⟨after, s, hdone, hrest⟩
        obtain ⟨hdef, hall⟩ := (ih s).mp ⟨after, hrest⟩
        exact ⟨hdef, ⟨s, hdone⟩, hall⟩
      · rintro ⟨hdef, ⟨s, hdone⟩, hall⟩
        obtain ⟨after, hrest⟩ := (ih s).mpr ⟨hdef, hall⟩
        exact ⟨after, s, hdone, hrest⟩

/-- What the loop has stored when it comes to its end. -/
theorem readLines_values {V : Str → Pair → Prop}
    (hinc : ∀ name s s', name ≠ [] → inc name s = .done s' →
      ∀ pair, pair ∈ s'.values ↔ pair ∈ s.values ∨ V name pair)
    {ls : List Str} {self after : ConfReader} (h : readLines inc ls self = .done after)
    (pair : Pair) :
    pair ∈ after.values ↔
      pair ∈ self.values ∨ pair ∈ storedPairs ls ∨ ∃ name ∈ included ls, V name pair := by
  induction ls generalizing self with
  | nil =>
    obtain rfl := Outcome.done.inj h
    simp [storedPairs, included]
  | cons line rest ih =>
    rw [readLines] at h
    rw [storedPairs, included]
    cases hact : lineAction line with
    | ignore =>
      rw [hact] at h
      exact ih h
    | insertPair p =>
      rw [hact] at h
      rw [ih h, (Multimap.insert_perm p self.values).mem_iff, List.mem_cons, List.mem_cons]
      tauto
    | throws =>
      rw [hact] at h
      obtain rfl := Outcome.done.inj h
      simp
    | undefined =>
      rw [hact] at h
      cases h
    | includeFile name =>
      rw [hact] at h
      obtain ⟨s, hdone, hrest⟩ := Outcome.bind_eq_done.mp h
      rw [ih hrest, hinc name self s (include_ne_nil hact) hdone]
      simp only [List.exists_mem_cons_iff]
      tauto

end Loop

/-! ## Nested calls -/

section Read

variable {fs : Str → Option Str}

/-- A call that opens a file reads its lines, with the includes one call deeper. -/
theorem read_succ {fname : Str} {clear : Bool} {self : ConfReader} (depth : Nat) {content : Str}
    (hstart : startName fname self ≠ []) (hfile : fs (startName fname self) = some content) :
    read fs (depth + 1) fname clear self
      = (readLines (fun name s => (read fs depth name false s).bind fun r => .done r.1)
          (inbuffs content) ⟨kept fs fname clear self, startName fname self⟩).bind
            fun s => .done (s, s.values.length % 2 ^ 32) := by
  have hnamed : (if fname ≠ [] then { self with filename := fname } else self)
      = ⟨self.values, startName fname self⟩ := by
    unfold startName
    split <;> rfl
  have hkept : (if clear then ⟨[], startName fname self⟩ else ⟨self.values, startName fname self⟩)
      = (⟨kept fs fname clear self, startName fname self⟩ : ConfReader) := by
    unfold kept
    rw [hfile]
    cases clear <;> simp [hstart]
  rw [read, hnamed]
  simp only [if_pos hstart, hfile, hkept]

/-- A call that opens no file changes no value. -/
theorem read_succ_of_missing {fname : Str} {clear : Bool} {self : ConfReader} (depth : Nat)
    (hmissing : startName fname self = [] ∨ fs (startName fname self) = none) :
    read fs (depth + 1) fname clear self
      = .done (⟨kept fs fname clear self, startName fname self⟩,
          (kept fs fname clear self).length % 2 ^ 32) := by
  have hnamed : (if fname ≠ [] then { self with filename := fname } else self)
      = ⟨self.values, startName fname self⟩ := by
    unfold startName
    split <;> rfl
  have hkept : kept fs fname clear self = self.values := by
    unfold kept
    refine if_neg ?_
    rintro ⟨-, hne, hsome⟩
    rcases hmissing with hnil | hnone
    · exact hne hnil
    · rw [hnone] at hsome
      cases hsome
  rw [read, hnamed, hkept]
  rcases hmissing with hnil | hnone
  · simp [hnil, Outcome.bind]
  · by_cases hnil : startName fname self = [] <;> simp [hnil, hnone, Outcome.bind]

theorem startName_of_ne_nil {name : Str} (h : name ≠ []) (s : ConfReader) :
    startName name s = name := if_pos h

theorem includes_eq {name content : Str} (hfile : fs name = some content) :
    includes fs name = included (inbuffs content) := by
  rw [includes, hfile]

theorem pairsOf_eq {name content : Str} (hfile : fs name = some content) :
    pairsOf fs name = storedPairs (inbuffs content) := by
  rw [pairsOf, hfile]

theorem fileDefined_iff {name content : Str} (hfile : fs name = some content) :
    FileDefined fs name ↔ Defined (inbuffs content) := by
  rw [FileDefined, hfile]
  simp

/-- A call returns when the files that it reaches are come back from within the depth. -/
theorem read_done_iff (depth : Nat) (fname : Str) (clear : Bool) (self : ConfReader)
    (hstart : startName fname self ≠ []) :
    (∃ after, read fs depth fname clear self = .done after) ↔
      Within (includes fs) (FileDefined fs) depth (startName fname self) := by
  induction depth generalizing fname clear self with
  | zero => simp [read, Within]
  | succ depth ih =>
    cases hfile : fs (startName fname self) with
    | none =>
      rw [read_succ_of_missing depth (Or.inr hfile), Within]
      refine iff_of_true ⟨_, rfl⟩ ⟨fun content hcontent => ?_, fun m hm => ?_⟩
      · rw [hfile] at hcontent
        cases hcontent
      · rw [includes, hfile] at hm
        cases hm
    | some content =>
      -- the includes, by the induction hypothesis
      have hinc : ∀ name s, name ≠ [] →
          ((∃ s', (read fs depth name false s).bind (fun r => .done r.1) = .done s') ↔
            Within (includes fs) (FileDefined fs) depth name) := by
        intro name s hne
        have hname := ih name false s (by rwa [startName_of_ne_nil hne])
        rw [startName_of_ne_nil hne] at hname
        rw [← hname]
        simp only [Outcome.bind_eq_done]
        constructor
        · rintro ⟨s', after, hdone, -⟩
          exact ⟨after, hdone⟩
        · rintro ⟨after, hdone⟩
          exact ⟨after.1, after, hdone, rfl⟩
      have hlines := readLines_done_iff hinc (inbuffs content)
        ⟨kept fs fname clear self, startName fname self⟩
      rw [Within, fileDefined_iff hfile, includes_eq hfile, ← hlines,
        read_succ depth hstart hfile]
      simp only [Outcome.bind_eq_done]
      constructor
      · rintro ⟨after, s, hdone, -⟩
        exact ⟨s, hdone⟩
      · rintro ⟨s, hdone⟩
        exact ⟨_, s, hdone, rfl⟩

/-- What is read for a file: its own pairs, and those of what it includes. -/
theorem reached_pairs_iff (name : Str) (pair : Pair) :
    (∃ file, ReflTransGen (Child (includes fs)) name file ∧ pair ∈ pairsOf fs file) ↔
      pair ∈ pairsOf fs name ∨ ∃ m ∈ includes fs name,
        ∃ file, ReflTransGen (Child (includes fs)) m file ∧ pair ∈ pairsOf fs file := by
  constructor
  · rintro ⟨file, hreach, hpair⟩
    rcases hreach.cases_head with rfl | ⟨m, hm, hrest⟩
    · exact Or.inl hpair
    · exact Or.inr ⟨m, hm, file, hrest, hpair⟩
  · rintro (hpair | ⟨m, hm, file, hrest, hpair⟩)
    · exact ⟨name, ReflTransGen.refl, hpair⟩
    · exact ⟨file, ReflTransGen.head hm hrest, hpair⟩

/-- What a call that returns has stored: what it kept, and the pairs of every file reached. -/
theorem read_values {depth : Nat} {fname : Str} {clear : Bool} {self : ConfReader}
    {after : ConfReader × Nat} (h : read fs depth fname clear self = .done after) (pair : Pair) :
    pair ∈ after.1.values ↔ pair ∈ kept fs fname clear self ∨
      ∃ file, Reached fs (startName fname self) file ∧ pair ∈ pairsOf fs file := by
  induction depth generalizing fname clear self after pair with
  | zero => cases h
  | succ depth ih =>
    by_cases hmissing : startName fname self = [] ∨ fs (startName fname self) = none
    · rw [read_succ_of_missing depth hmissing] at h
      obtain rfl := Outcome.done.inj h
      refine (or_iff_left ?_).symm
      rintro ⟨file, ⟨hne, hreach⟩, hpair⟩
      have hnone := hmissing.resolve_left hne
      have hfile : file = startName fname self := by
        rcases hreach.cases_head with rfl | ⟨m, hm, _⟩
        · rfl
        · rw [Child, includes, hnone] at hm
          cases hm
      rw [hfile, pairsOf, hnone] at hpair
      cases hpair
    · rw [not_or] at hmissing
      obtain ⟨content, hfile⟩ := Option.ne_none_iff_exists'.mp hmissing.2
      rw [read_succ depth hmissing.1 hfile] at h
      obtain ⟨s, hdone, hs⟩ := Outcome.bind_eq_done.mp h
      obtain rfl := Outcome.done.inj hs
      have hinc : ∀ name s s', name ≠ [] →
          (read fs depth name false s).bind (fun r => .done r.1) = .done s' →
          ∀ pair, pair ∈ s'.values ↔ pair ∈ s.values ∨
            ∃ file, ReflTransGen (Child (includes fs)) name file ∧ pair ∈ pairsOf fs file := by
        intro name s s' hne hdone pair
        obtain ⟨r, hread, hr⟩ := Outcome.bind_eq_done.mp hdone
        obtain rfl := Outcome.done.inj hr
        rw [ih hread pair, startName_of_ne_nil hne]
        simp [kept, Reached, hne]
      rw [readLines_values hinc hdone pair, ← pairsOf_eq hfile, ← includes_eq hfile,
        ← reached_pairs_iff]
      simp [Reached, hmissing.1]

end Read

/-! ## Termination -/

/-- The call returns, with the values that it kept and those of every file reached. -/
def ReadsAll (fs : Str → Option Str) (fname : Str) (clear : Bool) (self : ConfReader) : Prop :=
  ∃ depth after, read fs depth fname clear self = .done after ∧
    ∀ pair, pair ∈ after.1.values ↔ pair ∈ kept fs fname clear self ∨
      ∃ file, Reached fs (startName fname self) file ∧ pair ∈ pairsOf fs file

theorem includes_finite {fs : Str → Option Str} (hfin : {name | fs name ≠ none}.Finite) :
    {name | includes fs name ≠ []}.Finite := by
  refine hfin.subset fun name hname hnone => ?_
  have hne : includes fs name ≠ [] := hname
  rw [includes, hnone] at hne
  exact hne rfl

/-- A call returns with the values of every file reached exactly when no such file is reached from
itself, and reading its lines stays within the defined behaviour. -/
theorem read_terminates_iff (fs : Str → Option Str) (hfin : {name | fs name ≠ none}.Finite)
    (fname : Str) (clear : Bool) (self : ConfReader) :
    ReadsAll fs fname clear self ↔
      ∀ file, Reached fs (startName fname self) file →
        FileDefined fs file ∧ ¬ TransGen (Child (includes fs)) file file := by
  have hreturns : ReadsAll fs fname clear self ↔
      ∃ depth after, read fs depth fname clear self = .done after :=
    exists_congr fun depth => exists_congr fun after => and_iff_left_of_imp read_values
  rw [hreturns]
  by_cases hstart : startName fname self = []
  · refine iff_of_true ⟨1, _, read_succ_of_missing 0 (Or.inl hstart)⟩ fun file hfile => ?_
    exact absurd hstart hfile.1
  · simp only [read_done_iff _ fname clear self hstart, exists_within_iff (includes_finite hfin),
      Reached, and_imp, hstart, ne_eq, not_false_eq_true, true_imp_iff]

/-! ## Two collections of files -/

/-- A line of a file that is read as documented comes first. -/
theorem inbuffs_line {line : Str} (hline : Ch.newline ∉ line) (hfit : line.length < bufSize)
    (rest : Str) : inbuffs (line ++ Ch.newline :: rest) = line :: inbuffs rest := by
  have hall : ∀ c ∈ line, (c != Ch.newline) = true := fun c hc => by
    simpa using fun h : c = Ch.newline => hline (h ▸ hc)
  have htake : (line ++ Ch.newline :: rest).takeWhile (fun c => c != Ch.newline) = line := by
    rw [List.takeWhile_append_of_pos hall]
    simp
  rw [inbuffs, if_neg (by simp), htake]
  simp [hfit, List.drop_append, List.drop_eq_nil_of_le]

/-- A file that is included twice. -/
def sharedFiles (name : Str) : Option Str :=
  if name = str "top" then some (str "*INCLUDE base" ++ Ch.newline :: (str "*INCLUDE base"
    ++ Ch.newline :: []))
  else if name = str "base" then some (str "port 80" ++ Ch.newline :: [])
  else none

theorem read_terminates_shared : ReadsAll sharedFiles (str "top") true ⟨[], []⟩ := by
  have hinclude : lineAction (str "*INCLUDE base") = .includeFile (str "base") :=
    (lineAction_readable (by decide) (by decide)).trans (by decide)
  have hport : lineAction (str "port 80") = .insertPair (str "port", str "80") :=
    (lineAction_readable (by decide) (by decide)).trans (by decide)
  have hlast : lineAction [] = .ignore :=
    (lineAction_readable (by decide) (by decide)).trans (by decide)
  have hbuffsTop : inbuffs (str "*INCLUDE base" ++ Ch.newline :: (str "*INCLUDE base"
      ++ Ch.newline :: [])) = [str "*INCLUDE base", str "*INCLUDE base", []] := by
    rw [inbuffs_line (by decide) (by decide), inbuffs_line (by decide) (by decide), inbuffs,
      if_pos rfl]
  have hbuffsBase : inbuffs (str "port 80" ++ Ch.newline :: []) = [str "port 80", []] := by
    rw [inbuffs_line (by decide) (by decide), inbuffs, if_pos rfl]
  have htop : sharedFiles (str "top") = some _ := if_pos rfl
  have hbase : sharedFiles (str "base") = some _ := (if_neg (by decide)).trans (if_pos rfl)
  have hwithin : Within (includes sharedFiles) (FileDefined sharedFiles) 2 (str "top") := by
    refine ⟨(fileDefined_iff htop).mpr ?_, fun m hm => ?_⟩
    · simp [hbuffsTop, Defined, hinclude, hlast]
    · rw [includes_eq htop, hbuffsTop] at hm
      obtain rfl : m = str "base" := by simpa [included, hinclude, hlast] using hm
      refine ⟨(fileDefined_iff hbase).mpr ?_, fun m hm => ?_⟩
      · simp [hbuffsBase, Defined, hport, hlast]
      · rw [includes_eq hbase, hbuffsBase] at hm
        simp [included, hport, hlast] at hm
  have hfin : {name | sharedFiles name ≠ none}.Finite := by
    refine (Set.toFinite {str "top", str "base"}).subset fun name hname => ?_
    by_contra hnot
    simp only [Set.mem_insert_iff, Set.mem_singleton_iff, not_or] at hnot
    exact hname ((if_neg hnot.1).trans (if_neg hnot.2))
  exact (read_terminates_iff sharedFiles hfin (str "top") true ⟨[], []⟩).mpr fun file hfile =>
    hwithin.reached hfile.2

/-- A file that includes itself. -/
def selfFile (name : Str) : Option Str :=
  if name = str "a" then some (str "*INCLUDE a" ++ Ch.newline :: []) else none

/-- The call never returns. -/
theorem read_self_include : ¬ ReadsAll selfFile (str "a") true ⟨[], []⟩ := by
  have hinclude : lineAction (str "*INCLUDE a") = .includeFile (str "a") :=
    (lineAction_readable (by decide) (by decide)).trans (by decide)
  have hincludes : str "a" ∈ includes selfFile (str "a") := by
    rw [includes_eq (if_pos rfl), inbuffs_line (by decide) (by decide), included, hinclude]
    exact List.mem_cons_self
  rintro ⟨depth, after, hdone, -⟩
  have hwithin := (read_done_iff depth (str "a") true ⟨[], []⟩ (by decide)).mp ⟨after, hdone⟩
  exact not_within_of_cycle (TransGen.single hincludes) depth hwithin

end ConfReader

end Nrtb
