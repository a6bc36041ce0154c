import Nrtb.Lib.CInt
import Nrtb.Lib.Decimal
import Nrtb.SimCore.Panopticon
import Nrtb.Triad.Text

/-!
# `radar_mk1`

`cpp/sim_engine/radar/radar_mk1.cpp`, lines 58–116, and the reader `parse_contacts` of its unit
test. The radar keeps the id of its parent as an `int`, and compares it with the 64-bit ids of the
contacts. Its arithmetic on coordinates is a parameter.

A reply should have everybody in range but the parent itself, and should be such that the reader of
the test gets all of it and nothing more. The first is decided by the ids: an `int` of them comes
back as another number when it does not fit. The second is about text. The reply announces how many
groups there are and then writes the groups, with the two counted in different places, so that the
reader has to come to the end of the text just when it has read its number of groups.

* `get_contacts_eq`: the reply, from the contacts that are sent out.
* `parseLoop_groups`, `consumed_answer`: a reader of a reply is at its end after the number of
  groups that the reply announces, by induction on the groups.
* `complete_iff`: when the contacts that are sent out are those that should be, in their order, and
  the reply can be read.
-/

namespace Nrtb

open Istream

open SimCore.Panopticon (SensorRec Visible)

/-- The arithmetic on `float` that a radar does. -/
structure FloatOps (F : Type*) where
  add : F → F → F
  sub : F → F → F
  mul : F → F → F
  sqrt : F → F
  atan2 : F → F → F
  -- `(adjustment - floor(adjustment)*1.0) - 0.5`
  scale : F → F
  -- `x < y`
  lt : F → F → Bool
  -- `x < (y*5.0)`
  ltFive : F → F → Bool

namespace FloatOps

variable {F : Type*} (fl : FloatOps F)

/-- `triad<T>::operator -` -/
def subTriad (p q : Triad F) : Triad F := ⟨fl.sub p.x q.x, fl.sub p.y q.y, fl.sub p.z q.z⟩

/-- `triad<T>::magnatude` -/
def magnatude (p : Triad F) : F :=
  fl.sqrt (fl.add (fl.add (fl.mul p.x p.x) (fl.mul p.y p.y)) (fl.mul p.z p.z))

/-- `triad<T>::to_polar` -/
def to_polar (p : Triad F) : Triad F :=
  ⟨fl.magnatude p, fl.atan2 p.y p.x,
    fl.atan2 (fl.sqrt (fl.add (fl.mul p.x p.x) (fl.mul p.y p.y))) p.z⟩

end FloatOps

/-- `radar_mk1` -/
structure Radar (F : Type*) where
  parent_id : Int
  parent_location : Triad F
  parent_velocity : Triad F
  type_return_limit : F
  dist_return_limit : F

namespace Radar

variable {F : Type*} (fl : FloatOps F) (print : F → Str) (r : Radar F)

/-- `radar_mk1::tick`: the id is cut to an `int`. -/
def tick (o : Visible F) : Radar F :=
  { r with
    parent_id := CInt.toInt o.id
    parent_location := o.location
    parent_velocity := o.velocity }

/-- What the radar makes of a contact: its record, and the offset to it in polar coordinates. -/
def observe (c : SensorRec F) : SensorRec F × Triad F :=
  let offset := fl.to_polar (fl.subTriad c.location r.parent_location)
  let (c, offset) :=
    if fl.lt r.dist_return_limit offset.x then
      -- create range inaccuracy, hide velocity
      let adjustment := fl.sub offset.x r.dist_return_limit
      ({ c with velocity := r.parent_velocity },
        { offset with x := fl.add offset.x (fl.mul adjustment (fl.scale adjustment)) })
    else (c, offset)
  let c := if fl.lt r.type_return_limit offset.x then { c with type := 0 } else c
  (c, offset)

/-- `offset.x < (dist_return_limit*5.0)`, for the range that is reported. -/
def inRange (c : SensorRec F) : Bool := fl.ltFive (observe fl r c).2.x r.dist_return_limit

/-- The text of a contact. -/
def group (c : SensorRec F) : Str :=
  str " " ++ Decimal.print (observe fl r c).1.type ++ str " "
    ++ Triad.insertion print (observe fl r c).2 ++ str " "
    ++ Triad.insertion print (fl.subTriad (observe fl r c).1.velocity r.parent_velocity)

/-- The two accumulators of the loop in `get_contacts`, and the contacts that were sent out. -/
structure Sweep (F : Type*) where
  counter : Int
  results : Str
  sent : List (SensorRec F)

/-- The loop body; the `int` is converted for the comparison of the ids. -/
def look (acc : Sweep F) (c : SensorRec F) : Sweep F :=
  if c.id ≠ CInt.toSize r.parent_id then
    -- send it out if we are close enough
    if inRange fl r c then
      ⟨CInt.toInt (acc.counter + 1), acc.results ++ group fl print r c, acc.sent ++ [c]⟩
    else acc
  else acc

def sweep (c_list : List (SensorRec F)) : Sweep F := c_list.foldl (look fl print r) ⟨0, [], []⟩

/-- `radar_mk1::get_contacts` -/
def get_contacts (c_list : List (SensorRec F)) : Str :=
  str "radar contacts " ++
    if c_list.length ≠ 0 then
      Decimal.print (sweep fl print r c_list).counter ++ (sweep fl print r c_list).results
    else Decimal.print 0

/-! ## The reply -/

/-- The contacts that should be sent out. -/
def wanted (id : Nat) (c_list : List (SensorRec F)) : List (SensorRec F) :=
  c_list.filter fun c => c.id ≠ id ∧ inRange fl r c

/-- Count and groups for some contacts. -/
def answer (cs : List (SensorRec F)) : Str :=
  str "radar contacts " ++ Decimal.print cs.length ++ cs.flatMap (group fl print r)

section Reply

variable {fl print r}

/-- The loop sends out what is wanted by a radar whose parent has the id that it compares with. -/
theorem sweep_eq (c_list : List (SensorRec F)) :
    sweep fl print r c_list =
      ⟨CInt.toInt (wanted fl r (CInt.toSize r.parent_id) c_list).length,
        (wanted fl r (CInt.toSize r.parent_id) c_list).flatMap (group fl print r),
        wanted fl r (CInt.toSize r.parent_id) c_list⟩ := by
  unfold sweep
  induction c_list using List.reverseRecOn with
  | nil => simp [wanted, CInt.toInt_of_range]
  | append_singleton c_list c ih =>
    rw [List.foldl_append, ih]
    show look fl print r _ c = _
    unfold look wanted
    rw [List.filter_append]
    by_cases hid : c.id ≠ CInt.toSize r.parent_id
    · rw [if_pos hid]
      by_cases hrange : inRange fl r c = true
      · rw [if_pos hrange, List.filter_cons_of_pos (by simp [hid, hrange])]
        simp [CInt.toInt_toInt_add]
      · rw [if_neg hrange, List.filter_cons_of_neg (by simp [hrange])]
        simp
    · rw [if_neg hid, List.filter_cons_of_neg (by simp [not_not.mp hid])]
      simp

theorem get_contacts_eq (c_list : List (SensorRec F)) :
    get_contacts fl print r c_list = str "radar contacts "
      ++ (Decimal.print (CInt.toInt (sweep fl print r c_list).sent.length)
        ++ (sweep fl print r c_list).sent.flatMap (group fl print r)) := by
  unfold get_contacts
  split
  · rw [sweep_eq]
  · next hempty =>
    obtain rfl := List.eq_nil_of_length_eq_zero (not_not.mp hempty)
    simp [sweep, CInt.toInt_of_range]

/-- The parent's own record, when it is in range, is sent out exactly when the id does not survive
the detour over `int`. -/
theorem parent_sent_iff {o : Visible F} (hid : o.id < 2 ^ 64) {c_list : List (SensorRec F)}
    {c : SensorRec F} (hc : c ∈ c_list) (hown : c.id = o.id)
    (hrange : inRange fl (r.tick o) c = true) :
    c ∈ (sweep fl print (r.tick o) c_list).sent ↔ 2 ^ 31 ≤ o.id ∧ o.id < 2 ^ 64 - 2 ^ 31 := by
  have hparent : (r.tick o).parent_id = CInt.toInt o.id := by
    dsimp only [tick]
  have hiff := CInt.toSize_toInt_iff hid
  rw [sweep_eq, hparent]
  simp only [wanted, List.mem_filter, hc, hown, hrange, decide_eq_true_iff, true_and, and_true]
  omega

end Reply

/-! ## Reading a reply -/

/-- `stream >> target` for an `int`. -/
def scanInt : Str → Scan Int := Decimal.scan (-2 ^ 31) (2 ^ 31 - 1)

section Reader

variable [Zero F] (scan : Str → Scan F) (garbage : Int)

/-- One pass of the loop in `parse_contacts`. -/
def parse_contact (f : State Byte) : (Int × Triad F × Triad F) × State Byte :=
  let (type, f) := number isspace scanInt f
  let (location, f) := Triad.extraction scan f ⟨0, 0, 0⟩
  let (velocity, f) := Triad.extraction scan f ⟨0, 0, 0⟩
  ((type.getD garbage, location, velocity), f)

/-- The loop in `parse_contacts`, with so many passes to go. -/
def parseLoop : Nat → State Byte → List (Int × Triad F × Triad F) × State Byte
  | 0, f => ([], f)
  | n + 1, f =>
    let (c, f) := parse_contact scan garbage f
    let (cs, f) := parseLoop n f
    (c :: cs, f)

/-- `parse_contacts`, with what is left of the stream. -/
def parse_contacts (s : Str) : List (Int × Triad F × Triad F) × State Byte :=
  let in_ : State Byte := ⟨s, false⟩
  let (_, in_) := Triad.element in_
  let (_, in_) := Triad.element in_
  let (count, in_) := number isspace scanInt in_
  parseLoop scan garbage (count.getD garbage).toNat in_

end Reader

/-- The reader takes a count, and so many groups, and then the reply is at its end. -/
def Consumed [Zero F] (scan : Str → Scan F) (garbage : Int) (n : Nat) (reply : Str) : Prop :=
  (parse_contacts scan garbage reply).1.length = n
    ∧ (parse_contacts scan garbage reply).2 = ⟨[], false⟩

theorem isspace_print (n : Int) : ∀ c ∈ Decimal.print n, isspace c = false := by
  intro c hc
  rcases Decimal.mem_print hc with rfl | hdigit
  · decide
  · have hlow := Decimal.le_toNat_of_isDigit hdigit
    exact isspace_of_lt (by omega)

theorem element_prefix {w rest : Str} (hw : ∀ c ∈ w, isspace c = false) (hne : w ≠ [])
    (hrest : rest.head?.all isspace = true) :
    Triad.element ⟨w ++ rest, false⟩ = (w, ⟨rest, false⟩) := by
  unfold Triad.element
  simp only [word_initial isspace hw hne hrest, Bool.false_eq_true, if_false,
    List.isEmpty_eq_false_iff.mpr hne]

theorem element_blank (text : Str) :
    Triad.element ⟨Ch.blank :: text, false⟩ = Triad.element ⟨text, false⟩ := by
  unfold Triad.element
  simp only [word_cons_space isspace (show isspace Ch.blank = true by decide), Bool.false_eq_true,
    if_false]

/-- Whatever the word is, it is taken. -/
theorem extraction_state [Zero F] (scan : Str → Scan F) (f : State Byte) (a : Triad F) :
    (Triad.extraction scan f a).2 = (Triad.element f).2 := by
  unfold Triad.extraction
  dsimp only
  split <;> rfl

section Groups

variable {fl} {print} {r} [Zero F] {scan : Str → Scan F} {garbage : Int}

/-- An `int`. -/
def IsInt (n : Int) : Prop := -2 ^ 31 ≤ n ∧ n < 2 ^ 31

instance (n : Int) : Decidable (IsInt n) := inferInstanceAs (Decidable (_ ∧ _))

theorem scanInt_print {n : Int} (h : IsInt n) :
    scanInt (Decimal.print n) = .good n (Decimal.print n).length :=
  Decimal.scan_print h.1 (Int.le_sub_one_of_lt h.2)

omit [Zero F] in
/-- The type of a contact is left as it is, or hidden. -/
theorem isInt_observe {c : SensorRec F} (h : IsInt c.type) : IsInt (observe fl r c).1.type := by
  have htype : (observe fl r c).1.type = c.type ∨ (observe fl r c).1.type = 0 := by
    unfold observe
    dsimp only
    split <;> split
    · exact Or.inr rfl
    · exact Or.inl rfl
    · exact Or.inr rfl
    · exact Or.inl rfl
  rcases htype with htype | htype
  · rwa [htype]
  · rw [htype]
    decide

omit [Zero F] in
theorem group_append (c : SensorRec F) (rest : Str) :
    group fl print r c ++ rest = Ch.blank :: (Decimal.print (observe fl r c).1.type
      ++ Ch.blank :: (Triad.insertion print (observe fl r c).2
        ++ Ch.blank :: (Triad.insertion print
          (fl.subTriad (observe fl r c).1.velocity r.parent_velocity) ++ rest))) := by
  have hblank : str " " = [Ch.blank] := by decide
  simp [group, hblank]

omit [Zero F] in
theorem head_groups (cs : List (SensorRec F)) :
    (cs.flatMap (group fl print r)).head?.all isspace = true := by
  cases cs with
  | nil => rfl
  | cons c cs =>
    rw [List.flatMap_cons, group_append]
    rfl

omit [Zero F] in
theorem answer_append (cs : List (SensorRec F)) :
    answer fl print r cs = str "radar" ++ Ch.blank :: (str "contacts"
      ++ Ch.blank :: (Decimal.print cs.length ++ cs.flatMap (group fl print r))) := by
  have hhead : str "radar contacts "
      = str "radar" ++ Ch.blank :: (str "contacts" ++ [Ch.blank]) := by
    decide
  simp [answer, hhead]

variable (hprint : ∀ v, ∀ c ∈ print v, isspace c = false)

omit [Zero F] in
theorem insertion_ne_nil (a : Triad F) : Triad.insertion print a ≠ [] := by
  rw [Triad.insertion_eq]
  exact List.cons_ne_nil _ _

include hprint

/-- One pass of the reader takes one group. -/
theorem parse_contact_group {c : SensorRec F} (hint : IsInt c.type) {rest : Str}
    (hrest : rest.head?.all isspace = true) :
    (parse_contact scan garbage ⟨group fl print r c ++ rest, false⟩).2 = ⟨rest, false⟩ := by
  have hword : ∀ a : Triad F, ∀ d ∈ Triad.insertion print a, isspace d = false := fun a =>
    Triad.no_space_insertion (hprint a.x) (hprint a.y) (hprint a.z)
  unfold parse_contact
  rw [group_append, number_word isspace scanInt (by decide) (isspace_print _)
    (Decimal.print_ne_nil _) (by simp [isspace]) (scanInt_print (isInt_observe hint))]
  dsimp only
  rw [extraction_state, extraction_state,
    element_blank, element_prefix (hword _) (insertion_ne_nil _) (by simp [isspace]),
    element_blank, element_prefix (hword _) (insertion_ne_nil _) hrest]

/-- So many passes take so many groups. -/
theorem parseLoop_groups {cs : List (SensorRec F)} (hint : ∀ c ∈ cs, IsInt c.type) :
    (parseLoop scan garbage cs.length ⟨cs.flatMap (group fl print r), false⟩).1.length = cs.length
      ∧ (parseLoop scan garbage cs.length ⟨cs.flatMap (group fl print r), false⟩).2
        = ⟨[], false⟩ := by
  induction cs with
  | nil => exact ⟨rfl, rfl⟩
  | cons c cs ih =>
    obtain ⟨hlength, hstate⟩ := ih fun d hd => hint d (List.mem_cons_of_mem c hd)
    rw [List.length_cons, List.flatMap_cons, parseLoop]
    dsimp only
    rw [parse_contact_group hprint (hint c (by simp)) (head_groups cs)]
    exact ⟨congrArg (· + 1) hlength, hstate⟩

/-- The reader takes a whole reply. -/
theorem consumed_answer {cs : List (SensorRec F)} (hint : ∀ c ∈ cs, IsInt c.type)
    (hlength : cs.length < 2 ^ 31) :
    Consumed scan garbage cs.length (answer fl print r cs) := by
  have hcount : IsInt cs.length := ⟨by omega, by exact_mod_cast hlength⟩
  unfold Consumed parse_contacts
  dsimp only
  rw [answer_append, element_prefix (no_space_of_all (by decide)) (by decide) (by rfl)]
  dsimp only
  rw [element_blank, element_prefix (no_space_of_all (by decide)) (by decide) (by rfl)]
  dsimp only
  rw [number_word isspace scanInt (by decide) (isspace_print _) (Decimal.print_ne_nil _)
    (head_groups cs) (scanInt_print hcount)]
  exact parseLoop_groups hprint hint

end Groups

/-! ## Whether the reply is complete -/

section Complete

variable [Zero F] (scan : Str → Scan F) (garbage : Int)

/-- What the radar of an object replies: the contacts that were sent out are the wanted ones, in
their order, the reply is their count and their groups, and a reader takes it whole. -/
structure Complete (o : Visible F) (c_list : List (SensorRec F)) : Prop where
  sent : (sweep fl print (r.tick o) c_list).sent = wanted fl (r.tick o) o.id c_list
  reply : get_contacts fl print (r.tick o) c_list
    = answer fl print (r.tick o) (wanted fl (r.tick o) o.id c_list)
  consumed : Consumed scan garbage (wanted fl (r.tick o) o.id c_list).length
    (get_contacts fl print (r.tick o) c_list)

variable {fl} {print} {r} {scan} {garbage}

omit [Zero F] in
/-- The wanted contacts for two ids are the same when the ids have the same contacts. -/
theorem wanted_eq_iff {id id' : Nat} {c_list : List (SensorRec F)} :
    wanted fl r id c_list = wanted fl r id' c_list ↔
      ∀ c ∈ c_list, inRange fl r c = true → (c.id = id' ↔ c.id = id) := by
  constructor
  · intro heq c hc hrange
    have hmem : c ∈ wanted fl r id c_list ↔ c ∈ wanted fl r id' c_list := by rw [heq]
    simp only [wanted, List.mem_filter, hc, hrange, decide_eq_true_iff, true_and, and_true] at hmem
    exact not_iff_not.mp hmem.symm
  · intro hsame
    refine List.filter_congr fun c hc => ?_
    by_cases hrange : inRange fl r c = true
    · simp [hrange, hsame c hc hrange]
    · simp [hrange]

/-- The reply is complete exactly when the id behind its detour over `int` tells the same contacts
in range apart from the parent, and the count is an `int`. The contacts are read back from the text
that is sent, one at a time, by the order in which they stand in it. -/
theorem complete_iff (hprint : ∀ v, ∀ c ∈ print v, isspace c = false) (o : Visible F)
    (c_list : List (SensorRec F)) (hint : ∀ c ∈ c_list, IsInt c.type) :
    Complete fl print r scan garbage o c_list ↔
      (∀ c ∈ c_list, inRange fl (r.tick o) c = true →
        (c.id = o.id ↔ c.id = CInt.toSize (CInt.toInt o.id)))
      ∧ (wanted fl (r.tick o) o.id c_list).length < 2 ^ 31 := by
  have hsent : (sweep fl print (r.tick o) c_list).sent
      = wanted fl (r.tick o) (CInt.toSize (CInt.toInt o.id)) c_list := by
    have hid : (r.tick o).parent_id = CInt.toInt o.id := by
      dsimp only [tick]
    rw [sweep_eq, hid]
  constructor
  · intro h
    have heq := hsent.symm.trans h.sent
    refine ⟨wanted_eq_iff.mp heq, ?_⟩
    have hreply := h.reply
    rw [get_contacts_eq, h.sent, answer, List.append_assoc] at hreply
    have hcount : CInt.toInt (wanted fl (r.tick o) o.id c_list).length
        = (wanted fl (r.tick o) o.id c_list).length :=
      Decimal.print_injective (List.append_cancel_right (List.append_cancel_left hreply))
    have hlt := CInt.toInt_lt (wanted fl (r.tick o) o.id c_list).length
    rw [hcount] at hlt
    exact_mod_cast hlt
  · rintro ⟨hsame, hlength⟩
    have heq := hsent.trans (wanted_eq_iff.mpr hsame)
    have hcount : CInt.toInt (wanted fl (r.tick o) o.id c_list).length
        = (wanted fl (r.tick o) o.id c_list).length :=
      CInt.toInt_of_range (by omega) (by exact_mod_cast hlength)
    have hreply : get_contacts fl print (r.tick o) c_list
        = answer fl print (r.tick o) (wanted fl (r.tick o) o.id c_list) := by
      rw [get_contacts_eq, heq, hcount, answer, List.append_assoc]
    refine ⟨heq, hreply, ?_⟩
    rw [hreply]
    exact consumed_answer hprint (fun c hc => hint c (List.mem_of_mem_filter hc)) hlength

end Complete

/-! ## Objects one above the other -/

/-- Arithmetic on the rationals, for points on the vertical axis at whole distances. -/
def onAxis : FloatOps ℚ where
  add x y := x + y
  sub x y := x - y
  mul x y := x * y
  sqrt x := Nat.sqrt x.num.toNat
  atan2 _ _ := 0
  scale x := x - ⌊x⌋ - 1 / 2
  lt x y := decide (x < y)
  ltFive x y := decide (x < y * 5)

/-- Whole numbers, as they are written. -/
def printWhole (x : ℚ) : Str := Decimal.print ⌊x⌋

/-- A ball of this id at the origin. -/
def atOrigin (id : Nat) : Visible ℚ where
  location := ⟨0, 0, 0⟩
  velocity := ⟨0, 0, 0⟩
  boundingSphere := ⟨1⟩
  object_type := 1
  id := id

/-- A radar that was never ticked. -/
def unticked : Radar ℚ := ⟨0, ⟨0, 0, 0⟩, ⟨0, 0, 0⟩, 10000, 10000⟩

/-- The object with the id `2 ^ 31` is a contact of its own radar. -/
theorem parent_among_contacts :
    (sweep onAxis printWhole (unticked.tick (atOrigin (2 ^ 31)))
        [SimCore.Panopticon.sense (atOrigin (2 ^ 31))]).sent
          = [SimCore.Panopticon.sense (atOrigin (2 ^ 31))]
      ∧ get_contacts onAxis printWhole (unticked.tick (atOrigin (2 ^ 31)))
        [SimCore.Panopticon.sense (atOrigin (2 ^ 31))] = str "radar contacts 1 1 (0,0,0) (0,0,0)"
      ∧ ¬ Complete onAxis printWhole unticked (fun _ => .bad 0) 0 (atOrigin (2 ^ 31))
        [SimCore.Panopticon.sense (atOrigin (2 ^ 31))] := by
  have hsent : (sweep onAxis printWhole (unticked.tick (atOrigin (2 ^ 31)))
      [SimCore.Panopticon.sense (atOrigin (2 ^ 31))]).sent
        = [SimCore.Panopticon.sense (atOrigin (2 ^ 31))] := by
    decide +kernel
  refine ⟨hsent, by decide +kernel, fun h => ?_⟩
  have hnone := hsent.symm.trans h.sent
  simp [wanted, SimCore.Panopticon.sense, atOrigin] at hnone

/-- The object with the id 5 sees what is five units above it. -/
theorem complete_iff_above :
    Complete onAxis printWhole unticked (fun _ => .bad 0) 0 (atOrigin 5)
      [SimCore.Panopticon.sense (atOrigin 5), ⟨2, 6, ⟨0, 0, 5⟩, ⟨0, 0, 0⟩, 1⟩] := by
  refine (complete_iff (fun v => isspace_print ⌊v⌋) (atOrigin 5) _ (by decide)).mpr ⟨?_, ?_⟩
  · intro c _ _
    rw [show CInt.toSize (CInt.toInt (atOrigin 5).id) = (atOrigin 5).id from by decide]
  · decide +kernel

end Radar

end Nrtb
