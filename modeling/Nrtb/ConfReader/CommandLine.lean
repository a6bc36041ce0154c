import Nrtb.ConfReader.File

/-!
# `conf_reader::read(argc, argv, filename)`

`cpp/common/confreader/confreader.cpp`, lines 103–165 and 192–211. The arguments are collected in a
multimap of their own, the file is read, and the arguments are merged into what it stored. A name
that is given on the command line takes the place of the first value that the file has for it, and
the others stay behind it, which is what a look-up by name gets to see.

An argument is cut at every `=` and put together again behind the first one, by a loop with an
`unsigned` counter. The merge goes through the arguments in the order of their names, and overwrites
what it finds. Both are brought to a form without a loop: a name and the rest of the argument, and,
for each name alone, the last value given in the place of the first one stored.

* `argPair_eq`: an argument is cut at its first `=`.
* `read_sorted`: what a file stores is in the order of its names.
* `merge_filter`: what the merge leaves of one name.
* `command_line_over_file`: the documented rules.
-/

namespace Nrtb

namespace ConfReader

/-! ## The arguments -/

/-- The loop that puts the parts of a value together again. Its counter is an `unsigned int` and
would start over at 2^32 parts; the argument of a program has not so many characters. -/
def assemble : List Str → Str → Str
  | [], second => second
  | [last], second => second ++ last
  | part :: rest, second => assemble rest (second ++ part ++ [Ch.equals])

/-- The pair of an argument; nothing for an empty one. What the two calls of `trim` return is
dropped. -/
def argPair (instring : Str) : Option Pair :=
  match split instring Ch.equals with
  | [] => none
  | first :: rest => some (first, assemble rest [])

/-- The arguments, the first one under its name. -/
def instrings : List Str → List Str
  | [] => []
  | exec :: args => (str "__exec_name=" ++ exec) :: args

/-- The loop over the arguments, which fills `cvars` and picks the file. -/
def argLoop : List Str → List Pair → Str → List Pair × Str
  | [], cvars, filename => (cvars, filename)
  | instring :: rest, cvars, filename =>
    match argPair instring with
    | none => argLoop rest cvars filename
    | some newval =>
      argLoop rest (Multimap.insert newval cvars)
        (if newval.1 = str "configfile" then newval.2 else filename)

/-- The loop that merges `cvars`, in the order of its iterator, into `values`. -/
def mergeLoop : List Pair → List Pair → List Pair
  | [], values => values
  | c :: cvars, values =>
    mergeLoop cvars
      (match Multimap.find? c.1 values with
      | some _ => Multimap.setFirst c.1 c.2 values
      | none => Multimap.insert c values)

/-- `conf_reader::read(argc, argv, filename)` over the files `fs`, with a bound on the depth of
includes. Returns the object and the number of stored values, as an `unsigned int`. -/
def readArgs (fs : Str → Option Str) (depth : Nat) (argv : List Str) (fname : Str)
    (self : ConfReader) : Outcome (ConfReader × Nat) :=
  let self := { self with values := [] }
  let (cvars, filename) := argLoop (instrings argv) [] fname
  (read fs depth filename false { self with filename := filename }).bind fun after =>
    let values := mergeLoop cvars after.1.values
    .done ({ after.1 with values := values }, values.length % 2 ^ 32)

/-- `all(key)` -/
def all (self : ConfReader) (key : Str) : List Str :=
  (Multimap.equalRange key self.values).map Prod.snd

/-- `operator[](key)` -/
def get (self : ConfReader) (key : Str) : Str :=
  match Multimap.find? key self.values with
  | some res => res.2
  | none => []

/-! ## One argument -/

theorem assemble_eq (parts : List Str) (second : Str) :
    assemble parts second = second ++ [Ch.equals].intercalate parts := by
  fun_induction assemble parts second with
  | case1 second => simp [List.intercalate_nil]
  | case2 last second => rw [List.intercalate_singleton]
  | case3 part rest second hne ih =>
    have hrest : rest ≠ [] := hne
    rw [ih, List.intercalate_cons_of_ne_nil hrest]
    simp only [List.append_assoc]

/-- The name in front of the first `=`, and what is behind it. -/
def cutArg (arg : Str) : Pair :=
  (arg.takeWhile fun c => c != Ch.equals, (arg.dropWhile fun c => c != Ch.equals).tail)

/-- With a `=` the argument is the name, the `=` and the value; without one it is the name. -/
theorem cutArg_spec (arg : Str) :
    Ch.equals ∉ (cutArg arg).1
      ∧ (arg = (cutArg arg).1 ++ Ch.equals :: (cutArg arg).2
        ∨ arg = (cutArg arg).1 ∧ (cutArg arg).2 = []) := by
  refine ⟨fun h => by simpa using List.mem_takeWhile_imp h, ?_⟩
  have hall := List.takeWhile_append_dropWhile (p := fun c => c != Ch.equals) (l := arg)
  rw [cutArg]
  cases hdrop : arg.dropWhile fun c => c != Ch.equals with
  | nil =>
    rw [hdrop, List.append_nil] at hall
    exact .inr ⟨hall.symm, rfl⟩
  | cons c rest =>
    have hhead := List.head?_dropWhile_not (fun c => c != Ch.equals) arg
    rw [hdrop] at hhead hall
    obtain rfl : c = Ch.equals := by simpa using hhead
    exact .inl hall.symm

/-- An argument is cut at its first `=`. -/
theorem argPair_eq {arg : Str} (hne : arg ≠ []) : argPair arg = some (cutArg arg) := by
  obtain ⟨hname, hcut | ⟨hcut, hnil⟩⟩ := cutArg_spec arg
  · have hsplit : split arg Ch.equals = (cutArg arg).1 :: (cutArg arg).2.splitOn Ch.equals := by
      rw [split_eq hne]
      conv_lhs => rw [hcut]
      exact List.splitOn_append_cons_self_of_not_mem hname _
    rw [argPair, hsplit]
    simp only
    rw [assemble_eq, List.nil_append, List.intercalate_splitOn]
  · have hsplit : split arg Ch.equals = [(cutArg arg).1] := by
      rw [split_eq hne]
      conv_lhs => rw [hcut]
      exact List.splitOn_eq_singleton hname
    rw [argPair, hsplit]
    simp only [assemble]
    rw [← hnil]

/-- The pairs of the command line, in its order. -/
def argPairs (argv : List Str) : List Pair :=
  ((instrings argv).filter fun arg => arg ≠ []).map cutArg

/-- The file that is read: that of the last `configfile` argument, or `fname`. -/
def configName (argv : List Str) (fname : Str) : Str :=
  match ((argPairs argv).filter fun p => p.1 = str "configfile").getLast? with
  | some p => p.2
  | none => fname

theorem argLoop_eq (args : List Str) (cvars : List Pair) (filename : Str) :
    argLoop args cvars filename
      = (((args.filter fun arg => arg ≠ []).map cutArg).foldl
          (fun values arg => Multimap.insert arg values) cvars,
        match (((args.filter fun arg => arg ≠ []).map cutArg).filter
            fun p => p.1 = str "configfile").getLast? with
        | some p => p.2
        | none => filename) := by
  induction args generalizing cvars filename with
  | nil => rfl
  | cons arg rest ih =>
    by_cases hne : arg = []
    · subst hne
      rw [argLoop, List.filter_cons_of_neg (by simp)]
      exact ih cvars filename
    · rw [argLoop, argPair_eq hne, List.filter_cons_of_pos (by simpa using hne), List.map_cons,
        List.foldl_cons, List.filter_cons]
      simp only [ih]
      by_cases hconf : (cutArg arg).1 = str "configfile"
      · rw [if_pos hconf, if_pos (by simpa using hconf), List.getLast?_cons]
        cases (List.filter (fun p => decide (p.1 = str "configfile"))
          (List.map cutArg (List.filter (fun arg => decide (arg ≠ [])) rest))).getLast? <;> rfl
      · rw [if_neg hconf, if_neg (by simpa using hconf)]

/-! ## The file -/

theorem readLines_sorted {inc : Str → ConfReader → Outcome ConfReader}
    (hinc : ∀ name s s', inc name s = .done s' → Multimap.Sorted s.values →
      Multimap.Sorted s'.values) {inbuffs : List Str} {self after : ConfReader}
    (h : readLines inc inbuffs self = .done after) (hself : Multimap.Sorted self.values) :
    Multimap.Sorted after.values := by
  induction inbuffs generalizing self with
  | nil =>
    obtain rfl := Outcome.done.inj h
    exact hself
  | cons inbuff rest ih =>
    rw [readLines] at h
    cases hact : lineAction inbuff with
    | ignore => rw [hact] at h; exact ih h hself
    | insertPair arg =>
      rw [hact] at h
      exact ih h (Multimap.sorted_insert arg hself)
    | includeFile name =>
      rw [hact] at h
      obtain ⟨s, hdone, hrest⟩ := Outcome.bind_eq_done.mp h
      exact ih hrest (hinc name self s hdone hself)
    | throws =>
      rw [hact] at h
      obtain rfl := Outcome.done.inj h
      exact hself
    | undefined => rw [hact] at h; cases h

/-- What a file stores is in the order of its names. -/
theorem read_sorted {fs : Str → Option Str} {depth : Nat} {fname : Str} {clear : Bool}
    {self : ConfReader} {after : ConfReader × Nat}
    (h : read fs depth fname clear self = .done after)
    (hself : Multimap.Sorted self.values) : Multimap.Sorted after.1.values := by
  induction depth generalizing fname clear self after with
  | zero => cases h
  | succ depth ih =>
    rw [read] at h
    generalize hs : (if fname ≠ [] then { self with filename := fname } else self) = named at h
    have hnamed : Multimap.Sorted named.values := by
      rw [← hs]
      split <;> exact hself
    obtain ⟨s, hdone, hafter⟩ := Outcome.bind_eq_done.mp h
    obtain rfl := Outcome.done.inj hafter
    split at hdone
    · split at hdone
      · obtain rfl := Outcome.done.inj hdone
        exact hnamed
      · -- the lines of the file, with the includes one level down
        refine readLines_sorted (fun name s s' hinc hsorted => ?_) hdone ?_
        · obtain ⟨r, hread, hr⟩ := Outcome.bind_eq_done.mp hinc
          obtain rfl := Outcome.done.inj hr
          exact ih hread hsorted
        · split
          · exact List.Pairwise.nil
          · exact hnamed
    · obtain rfl := Outcome.done.inj hdone
      exact hnamed

/-! ## The merge -/

theorem mergeLoop_eq (cvars values : List Pair) :
    mergeLoop cvars values
      = cvars.foldl (fun values arg => Multimap.overwrite arg values) values := by
  induction cvars generalizing values with
  | nil => rfl
  | cons c cvars ih =>
    rw [List.foldl_cons, mergeLoop, ih, Multimap.overwrite]
    cases Multimap.find? c.1 values <;> rfl

/-- The values of a name, in their order. -/
def valuesOf (name : Str) (pairs : List Pair) : List Str :=
  (pairs.filter fun p => p.1 = name).map Prod.snd

/-- The last of the values given takes the place of the first one stored. -/
def overriding (given stored : List Str) : List Str :=
  match given.getLast? with
  | some value => value :: stored.tail
  | none => stored

/-- The documented rules for one name. -/
theorem merge_filter (pairs : List Pair) {values : List Pair} (hsorted : Multimap.Sorted values)
    (name : Str) :
    valuesOf name (mergeLoop (Multimap.ofList pairs) values)
      = overriding (valuesOf name pairs) (valuesOf name values) := by
  rw [valuesOf, mergeLoop_eq, Multimap.foldl_overwrite_filter _ hsorted, Multimap.filter_ofList,
    overriding, valuesOf, List.getLast?_map]
  cases (pairs.filter fun p => p.1 = name).getLast? with
  | none => rfl
  | some p => simp [valuesOf]

theorem sorted_mergeLoop (cvars : List Pair) {values : List Pair}
    (hsorted : Multimap.Sorted values) : Multimap.Sorted (mergeLoop cvars values) := by
  rw [mergeLoop_eq]
  induction cvars generalizing values with
  | nil => exact hsorted
  | cons c cvars ih => exact ih (Multimap.sorted_overwrite c hsorted)

/-- Of a name's values `all` returns every one, and `operator[]` the first. -/
theorem all_eq {self : ConfReader} (hsorted : Multimap.Sorted self.values) (name : Str) :
    self.all name = valuesOf name self.values
      ∧ self.get name = (valuesOf name self.values).head?.getD [] := by
  constructor
  · rw [all, Multimap.equalRange_eq name hsorted, valuesOf]
  · rw [get, Multimap.find?_eq, valuesOf, List.head?_map]
    cases (self.values.filter fun p => p.1 = name).head? <;> rfl

theorem argPairs_cons (exec : Str) (args : List Str) :
    argPairs (exec :: args)
      = (str "__exec_name", exec) :: (args.filter fun arg => arg ≠ []).map cutArg := by
  have hcut : cutArg (str "__exec_name=" ++ exec) = (str "__exec_name", exec) := rfl
  have hne : str "__exec_name=" ++ exec ≠ [] := fun h => by cases (List.append_eq_nil_iff.mp h).1
  have hfilter : ((str "__exec_name=" ++ exec) :: args).filter (fun arg => arg ≠ [])
      = (str "__exec_name=" ++ exec) :: args.filter fun arg => arg ≠ [] :=
    List.filter_cons_of_pos (decide_eq_true hne)
  rw [argPairs, instrings, hfilter, List.map_cons, hcut]

theorem filterMap_argPair (args : List Str) :
    args.filterMap argPair = (args.filter fun arg => arg ≠ []).map cutArg := by
  induction args with
  | nil => rfl
  | cons arg args ih =>
    by_cases hne : arg = []
    · subst hne
      exact ih
    · rw [List.filterMap_cons_some (argPair_eq hne), ih,
        List.filter_cons_of_pos (by simpa using hne), List.map_cons]

/-- The command line is read, then the file, and then they are merged. -/
theorem readArgs_eq (fs : Str → Option Str) (depth : Nat) (argv : List Str) (fname : Str)
    (self : ConfReader) :
    readArgs fs depth argv fname self
      = (read fs depth (configName argv fname) false ⟨[], configName argv fname⟩).bind fun after =>
          .done ({ after.1 with
              values := mergeLoop (Multimap.ofList (argPairs argv)) after.1.values },
            (mergeLoop (Multimap.ofList (argPairs argv)) after.1.values).length % 2 ^ 32) := by
  rw [readArgs, argLoop_eq]
  rfl

/-- The command line over the file: the call returns when the reading of the file does; its name and
the arguments that are not empty, each cut at its first `=`, are what is merged; and the values of
every name are those of the file with the last one that was given in the place of the first. -/
theorem command_line_over_file (fs : Str → Option Str) (depth : Nat) (exec : Str) (args : List Str)
    (fname : Str) (self : ConfReader) (after : ConfReader × Nat)
    (hfile : read fs depth (configName (exec :: args) fname) false
      ⟨[], configName (exec :: args) fname⟩ = .done after) :
    ∃ merged, readArgs fs depth (exec :: args) fname self
        = .done (merged, merged.values.length % 2 ^ 32)
      ∧ (instrings (exec :: args)).filterMap argPair
        = (str "__exec_name", exec) :: (args.filter fun arg => arg ≠ []).map cutArg
      ∧ ∀ name,
        let given := valuesOf name ((instrings (exec :: args)).filterMap argPair)
        let stored := valuesOf name after.1.values
        merged.get name = (given.getLast?.or stored.head?).getD []
          ∧ merged.all name = overriding given stored
          ∧ (stored = [] → given ≠ [] →
            (merged.values.filter fun p => p.1 = name).length = 1) := by
  have hpairs : (instrings (exec :: args)).filterMap argPair = argPairs (exec :: args) :=
    filterMap_argPair _
  have hsorted : Multimap.Sorted after.1.values := read_sorted hfile List.Pairwise.nil
  rw [readArgs_eq, hfile, hpairs]
  refine ⟨_, rfl, argPairs_cons exec args, fun name => ?_⟩
  generalize argPairs (exec :: args) = pairs
  have hmerged := merge_filter pairs hsorted name
  let merged : ConfReader := { after.1 with
    values := mergeLoop (Multimap.ofList pairs) after.1.values }
  have hkept : Multimap.Sorted merged.values := sorted_mergeLoop _ hsorted
  obtain ⟨hall, hget⟩ := all_eq hkept name
  rw [hmerged] at hall hget
  refine ⟨?_, hall, fun hstored hgiven => ?_⟩
  · rw [hget, overriding]
    cases (valuesOf name pairs).getLast? <;> rfl
  · -- only the value that overrides nothing is there
    obtain ⟨value, hvalue⟩ : ∃ value, (valuesOf name pairs).getLast? = some value :=
      ⟨_, List.getLast?_eq_some_getLast hgiven⟩
    have hlength := congrArg List.length hmerged
    rw [hstored, overriding, hvalue, valuesOf, List.length_map] at hlength
    exact hlength

/-- Two ports and a host. -/
def portFile : Str := str "port 80\nport 81\nhost a\n"

/-- The first of the two ports is overridden, by the last of its arguments. -/
theorem command_line_over_file_ports :
    ∃ merged n, readArgs (oneFile portFile) 1
        [str "sim", str "port=1", str "configfile=sim.conf", [], str "port=a=b", str "quiet"] []
        ⟨[], []⟩ = .done (merged, n)
      ∧ merged.all (str "port") = [str "a=b", str "81"] ∧ merged.get (str "port") = str "a=b"
      ∧ merged.all (str "host") = [str "a"]
      ∧ merged.all (str "quiet") = [[]]
      ∧ merged.get (str "__exec_name") = str "sim" := by
  have hfile : oneFile portFile (str "sim.conf") = some portFile := rfl
  have hsame : read (oneFile portFile) 1 (str "sim.conf") false ⟨[], str "sim.conf"⟩
      = read (oneFile portFile) 1 (str "sim.conf") true ⟨[], str "sim.conf"⟩ := rfl
  have hloaded : ∃ after, read (oneFile portFile) 1 (str "sim.conf") true ⟨[], str "sim.conf"⟩
        = .done after
      ∧ StoresExactly after.1.values ((lines portFile).filterMap documentedPair) :=
    read_stores (by decide) hfile (by decide) (by decide) (by decide)
  obtain ⟨after, hread, hstores⟩ := hloaded
  obtain ⟨merged, hmerged, _, hrules⟩ := command_line_over_file (oneFile portFile) 1 (str "sim")
    [str "port=1", str "configfile=sim.conf", [], str "port=a=b", str "quiet"] [] ⟨[], []⟩ after
    (hsame.trans hread)
  have hstored : ∀ name, valuesOf name after.1.values
      = valuesOf name ((lines portFile).filterMap documentedPair) := fun name =>
    congrArg (List.map Prod.snd) (hstores name)
  simp only [hstored, filterMap_argPair] at hrules
  refine ⟨merged, _, hmerged, (hrules (str "port")).2.1.trans ?_, (hrules (str "port")).1.trans ?_,
    (hrules (str "host")).2.1.trans ?_, (hrules (str "quiet")).2.1.trans ?_,
    (hrules (str "__exec_name")).1.trans ?_⟩ <;> decide

end ConfReader

end Nrtb
