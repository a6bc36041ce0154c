import Nrtb.BaseObject.Hover
import Nrtb.DiffSteer.Settings
import Nrtb.Lib.Decimal
import Nrtb.Lib.OrdMap
import Nrtb.Triad.Text

/-!
# Copies of a `bot_mk1`

`cpp/sim_engine/bot_mk1/bot_mk1.cpp`, lines 23–69, `base_object.cpp`, lines 132–155 and 268–286, and
the `clone` and `as_str` methods of the effectors. An implicit copy of an effector keeps the id; a
written copy constructor, and a new effector in the place of a copy, draw another id from the
serializer. A bot is copied field by field, and not every field is.

What a copy is worth is asked through `as_str`, which is all that an observer gets to see of a bot:
the copy of an object that is reported should be reported in the same words. A text is a faithful
witness only if it can be taken apart again, so that one field cannot make up for another. The
fields stand between labels with colons, and numbers have none, which is the hypothesis on `print`.

* `get_attribs_copy_implicit`, `implicit_of_ids`: when a copy of an effector list is the same list.
* `field_inj`: two texts with a label behind the field have the same field.
* `faithful_iff`: when the copies of a bot, and of its effectors, tell the same.
-/

namespace Nrtb

open scoped Numerals

namespace BotMk1

open DiffSteer (Pre)

variable {K : Type*}

/-! ## Effectors -/

/-- The effectors that there are, with the data that they print. -/
inductive Effector (K : Type*) where
  | radar
  | gravity (gn : Triad (Ieee K))
  | hover (h : Hover (Ieee K))
  | pre (s : Pre K)
  | post (skid_threshold slide_friction : Ieee K)

/-- `effector_list`: effectors by id. -/
abbrev EffectorMap (K : Type*) := OrdMap Nat (Effector K)

namespace Effector

section Text

variable (print : Ieee K → Str)

/-- `hover::as_str` -/
def hoverText (h : Hover (Ieee K)) : Str :=
  str "hover=" ++ print h.set_altitude ++ str "," ++ print h.range ++ str "," ++ print h.curve

/-- `diff_steer::pre::as_str` -/
def preText (s : Pre K) : Str :=
  str "diff_steer::pre=" ++ print (.fin s.max_p) ++ str "," ++ print s.set_p ++ str ","
    ++ print (.fin s.max_b) ++ str "," ++ print s.set_b ++ str ","
    ++ print (.fin s.max_t) ++ str "," ++ print s.set_t

/-- `as_str` -/
def as_str : Effector K → Str
  | radar => str "radar"
  | gravity gn => str "gravity=" ++ Triad.insertion print gn
  | hover h => hoverText print h
  | pre s => preText print s
  | post skid_threshold slide_friction =>
    str "diff_steer::post=" ++ print skid_threshold ++ str "," ++ print slide_friction

end Text

/-- The copy constructor is the implicit one. -/
def implicit : Effector K → Bool
  | gravity _ => true
  | hover _ => true
  | _ => false

variable [Field K] (draw : Nat → Nat)

/-- `clone`. The serializer gives out `draw i`, `draw (i + 1)` and so on; returned is also which one
is next. -/
def clone : Nat × Effector K → Nat → (Nat × Effector K) × Nat
  -- `std::make_shared<radar_mk1>()`
  | (_, radar), i => ((draw i, radar), i + 1)
  | (id, gravity gn), i => ((id, gravity gn), i)
  | (id, hover h), i => ((id, hover h), i)
  | (_, pre s), i => ((draw i, pre s.clone), i + 1)
  | (_, post skid_threshold slide_friction), i =>
    ((draw i, post skid_threshold slide_friction), i + 1)

/-- The copies of some effectors. -/
def cloneAll : List (Nat × Effector K) → Nat → List (Nat × Effector K) × Nat
  | [], i => ([], i)
  | e :: es, i =>
    let (c, i) := clone draw e i
    let (cs, i) := cloneAll es i
    (c :: cs, i)

/-- `get_pre_attribs_copy` and `get_post_attribs_copy`, with the list in question. -/
def get_attribs_copy (l : EffectorMap K) (i : Nat) : EffectorMap K × Nat :=
  let (cs, i) := cloneAll draw l.entries i
  (OrdMap.emplaceAll cs, i)

variable {draw}

theorem clone_implicit {e : Nat × Effector K} (h : e.2.implicit = true) (i : Nat) :
    clone draw e i = (e, i) := by
  obtain ⟨id, e⟩ := e
  cases e with
  | gravity gn => rfl
  | hover hv => rfl
  | _ => cases h

theorem cloneAll_implicit {es : List (Nat × Effector K)} (h : ∀ e ∈ es, e.2.implicit = true)
    (i : Nat) : cloneAll draw es i = (es, i) := by
  induction es with
  | nil => rfl
  | cons e es ih =>
    rw [cloneAll, clone_implicit (h e (by simp))]
    dsimp only
    rw [ih fun d hd => h d (List.mem_cons_of_mem e hd)]

/-- Implicit copies make up the same list. -/
theorem get_attribs_copy_implicit {l : EffectorMap K} (h : ∀ e ∈ l.entries, e.2.implicit = true)
    (i : Nat) : get_attribs_copy draw l i = (l, i) := by
  unfold get_attribs_copy
  rw [cloneAll_implicit h]
  exact Prod.ext (OrdMap.emplaceAll_entries l) rfl

/-- Any other copy has an id that was drawn for it. -/
theorem exists_draw {es : List (Nat × Effector K)} {e : Nat × Effector K} (he : e ∈ es)
    (h : e.2.implicit = false) (i : Nat) :
    ∃ j, draw j ∈ (cloneAll draw es i).1.map Prod.fst := by
  induction es generalizing i with
  | nil => cases he
  | cons d es ih =>
    rcases List.mem_cons.mp he with rfl | hrest
    · refine ⟨i, ?_⟩
      obtain ⟨id, e⟩ := e
      cases e with
      | gravity => cases h
      | hover => cases h
      | _ => simp [cloneAll, clone]
    · obtain ⟨j, hj⟩ := ih hrest (clone draw d i).2
      refine ⟨j, ?_⟩
      rw [cloneAll]
      exact List.mem_cons_of_mem _ hj

/-- The ids are the same only where every copy is implicit. -/
theorem implicit_of_ids {l : EffectorMap K} (hdraw : ∀ e ∈ l.entries, ∀ j, e.1 ≠ draw j) {i : Nat}
    (h : (get_attribs_copy draw l i).1.entries.map Prod.fst = l.entries.map Prod.fst) :
    ∀ e ∈ l.entries, e.2.implicit = true := by
  by_contra hnot
  push Not at hnot
  obtain ⟨e, he, hne⟩ := hnot
  obtain ⟨j, hj⟩ := exists_draw he (by simpa using hne) i
  have hmem : draw j ∈ l.entries.map Prod.fst := h ▸ OrdMap.mem_keys_emplaceAll hj
  obtain ⟨d, hd, hid⟩ := List.mem_map.mp hmem
  exact hdraw d hd j hid

end Effector

/-! ## Bots -/

/-- The data of a `bot_mk1` that `clone` and `as_str` read or write; a `rotatable` is its `axis`. -/
structure Bot (K : Type*) where
  id : Nat
  location : Triad (Ieee K)
  attitude : Triad (Ieee K)
  velocity : Triad (Ieee K)
  rotation : Triad (Ieee K)
  force : Triad (Ieee K)
  torque : Triad (Ieee K)
  accel_mod : Triad (Ieee K)
  rotation_mod : Triad (Ieee K)
  mass : Ieee K
  mass_mod : Ieee K
  center : Triad (Ieee K)
  radius : Ieee K
  pre_attribs : EffectorMap K
  post_attribs : EffectorMap K
  ImAlive : Bool

namespace Bot

section AsStr

variable (print : Ieee K → Str) (o : Bot K)

/-- The effectors of a list, as `as_str` streams them. -/
def effectorTexts (l : EffectorMap K) : Str :=
  l.entries.flatMap fun a => a.2.as_str print ++ str ";"

/-- The bounding sphere, as `as_str` streams it. -/
def sphereText : Str := Triad.insertion print o.center ++ str "," ++ print o.radius

/-- `base_object::as_str` -/
def as_str : Str :=
  str "ID=" ++ Decimal.print o.id
    ++ str ":loc=" ++ Triad.insertion print o.location
    ++ str ":att=" ++ Triad.insertion print o.attitude
    ++ str ":vel=" ++ Triad.insertion print o.velocity
    ++ str ":rot=" ++ Triad.insertion print o.rotation
    ++ str ":f=" ++ Triad.insertion print o.force
    ++ str ":t=" ++ Triad.insertion print o.torque
    ++ str ":acc_mod=" ++ Triad.insertion print o.accel_mod
    ++ str ":r_mod=" ++ Triad.insertion print o.rotation_mod
    ++ str ":mass=" ++ print o.mass
    ++ str ":mass_mod=" ++ print o.mass_mod
    ++ str ":b_sphere=" ++ sphereText print o
    ++ str ":pre=" ++ effectorTexts print o.pre_attribs
    ++ str ":posts=" ++ effectorTexts print o.post_attribs

end AsStr

variable [Field K] (draw : Nat → Nat)

/-- `bot_mk1(triplet where)`; `garbage` is what `mass_mod` and `ImAlive` are found with, which are
not initialised. -/
def construct (garbage : Ieee K × Bool) (id : Nat) (where_ : Triad (Ieee K)) : Bot K where
  id := id
  location := { where_ with z := .fin (9 / 4 + 1 / 4) }
  attitude := ⟨0, 0, 0⟩
  velocity := ⟨0, 0, 0⟩
  rotation := ⟨0, 0, 0⟩
  force := ⟨0, 0, 0⟩
  torque := ⟨0, 0, 0⟩
  accel_mod := ⟨0, 0, 0⟩
  rotation_mod := ⟨0, 0, 0⟩
  mass := .fin 30000
  mass_mod := garbage.1
  center := ⟨0, 0, 0⟩
  radius := .fin (9 / 4)
  pre_attribs := .empty
  post_attribs := .empty
  ImAlive := garbage.2

/-- `get_pre_attribs_copy` -/
def get_pre_attribs_copy (o : Bot K) (i : Nat) : EffectorMap K × Nat :=
  Effector.get_attribs_copy draw o.pre_attribs i

/-- `get_post_attribs_copy` -/
def get_post_attribs_copy (o : Bot K) (i : Nat) : EffectorMap K × Nat :=
  Effector.get_attribs_copy draw o.post_attribs i

/-- `bot_mk1::clone`; `object_id` is the id that the new bot draws. -/
def clone (garbage : Ieee K × Bool) (object_id : Nat) (o : Bot K) (i : Nat) : Bot K :=
  let t := construct garbage object_id o.location
  let (pre_attribs, i) := o.get_pre_attribs_copy draw i
  let (post_attribs, _) := o.get_post_attribs_copy draw i
  { t with
    pre_attribs := pre_attribs
    post_attribs := post_attribs
    id := o.id
    location := o.location
    velocity := o.velocity
    attitude := o.attitude
    rotation := o.rotation
    ImAlive := o.ImAlive }

/-! ## What copies tell -/

section Faithful

variable (print : Ieee K → Str) (garbage : Ieee K × Bool) (object_id : Nat) (o : Bot K)

/-- A copy of an effector list has the ids of the list, and tells the same. -/
structure SameEffectors (l c : EffectorMap K) : Prop where
  ids : c.entries.map Prod.fst = l.entries.map Prod.fst
  texts : c.entries.map (fun a => a.2.as_str print) = l.entries.map fun a => a.2.as_str print

/-- The copies of the effectors and of the bot itself, at any state of the serializer. -/
structure Faithful : Prop where
  pre : ∀ i, SameEffectors print o.pre_attribs (o.get_pre_attribs_copy draw i).1
  post : ∀ i, SameEffectors print o.post_attribs (o.get_post_attribs_copy draw i).1
  as_str : ∀ i, (o.clone draw garbage object_id i).as_str print = o.as_str print

/-- What `clone` does not copy is written like that of a new bot. -/
structure PrintsNew : Prop where
  force : Triad.insertion print o.force = Triad.insertion print ⟨0, 0, 0⟩
  torque : Triad.insertion print o.torque = Triad.insertion print ⟨0, 0, 0⟩
  accel_mod : Triad.insertion print o.accel_mod = Triad.insertion print ⟨0, 0, 0⟩
  rotation_mod : Triad.insertion print o.rotation_mod = Triad.insertion print ⟨0, 0, 0⟩
  mass : print o.mass = print (.fin 30000)
  mass_mod : print o.mass_mod = print garbage.1
  sphere : sphereText print o
    = Triad.insertion print ⟨0, 0, 0⟩ ++ str "," ++ print (.fin (9 / 4))

/-- The part of `as_str` that `clone` does not copy. -/
def middle : Str :=
  Triad.insertion print o.force ++ (str ":t=" ++ (Triad.insertion print o.torque
    ++ (str ":acc_mod=" ++ (Triad.insertion print o.accel_mod
    ++ (str ":r_mod=" ++ (Triad.insertion print o.rotation_mod
    ++ (str ":mass=" ++ (print o.mass ++ (str ":mass_mod=" ++ (print o.mass_mod
    ++ (str ":b_sphere=" ++ sphereText print o)))))))))))

variable {print} {garbage} {object_id} {o} {draw}

omit [Field K] in
theorem as_str_split : ∃ front back : Str, ∀ o' : Bot K, o'.id = o.id → o'.location = o.location →
    o'.attitude = o.attitude → o'.velocity = o.velocity → o'.rotation = o.rotation →
    o'.pre_attribs = o.pre_attribs → o'.post_attribs = o.post_attribs →
    o'.as_str print = front ++ (o'.middle print ++ back) := by
  refine ⟨str "ID=" ++ Decimal.print o.id ++ str ":loc=" ++ Triad.insertion print o.location
    ++ str ":att=" ++ Triad.insertion print o.attitude ++ str ":vel="
    ++ Triad.insertion print o.velocity ++ str ":rot=" ++ Triad.insertion print o.rotation
    ++ str ":f=", str ":pre=" ++ effectorTexts print o.pre_attribs ++ str ":posts="
    ++ effectorTexts print o.post_attribs, ?_⟩
  intro o' hid hlocation hattitude hvelocity hrotation hpre hpost
  unfold as_str middle
  rw [hid, hlocation, hattitude, hvelocity, hrotation, hpre, hpost]
  simp only [List.append_assoc]

/-- A text without a colon, up to the next label. -/
theorem field_inj {a a' label rest rest' : Str} (hlabel : label.head? = some Ch.colon)
    (ha : Ch.colon ∉ a) (ha' : Ch.colon ∉ a') :
    a ++ (label ++ rest) = a' ++ (label ++ rest') ↔ a = a' ∧ rest = rest' := by
  obtain ⟨tail, rfl⟩ : ∃ tail, label = Ch.colon :: tail := by
    cases label with
    | nil => cases hlabel
    | cons c tail => exact ⟨tail, by rw [Option.some.inj hlabel]⟩
  constructor
  · intro h
    induction a generalizing a' with
    | nil =>
      cases a' with
      | nil => exact ⟨rfl, List.append_cancel_left h⟩
      | cons c a' =>
        obtain ⟨rfl, _⟩ := List.cons_eq_cons.mp h
        exact absurd (List.mem_cons_self) ha'
    | cons c a ih =>
      cases a' with
      | nil =>
        obtain ⟨rfl, _⟩ := List.cons_eq_cons.mp h
        exact absurd (List.mem_cons_self) ha
      | cons d a' =>
        obtain ⟨rfl, htail⟩ := List.cons_eq_cons.mp h
        have hrest := ih (fun hm => ha (List.mem_cons_of_mem c hm))
          (fun hm => ha' (List.mem_cons_of_mem c hm)) htail
        exact ⟨congrArg (c :: ·) hrest.1, hrest.2⟩
  · rintro ⟨rfl, rfl⟩
    rfl

omit [Field K] in
theorem no_colon_insertion (hprint : ∀ v, Ch.colon ∉ print v) (a : Triad (Ieee K)) :
    Ch.colon ∉ Triad.insertion print a := by
  have hsep : Ch.colon ≠ Ch.paren ∧ Ch.colon ≠ Ch.comma ∧ Ch.colon ≠ Ch.close := by decide
  intro h
  rw [Triad.insertion_eq] at h
  simp only [List.mem_append, List.mem_cons, List.not_mem_nil, or_false] at h
  rcases h with (h | h) | h | h | h | h | h
  · exact hsep.1 h
  · exact hprint _ h
  · exact hsep.2.1 h
  · exact hprint _ h
  · exact hsep.2.1 h
  · exact hprint _ h
  · exact hsep.2.2 h

/-- The part that is not copied is that of a new bot. -/
theorem middle_clone_iff (hprint : ∀ v, Ch.colon ∉ print v) (i : Nat) :
    (o.clone draw garbage object_id i).middle print = o.middle print ↔
      PrintsNew print garbage o := by
  have hins := no_colon_insertion hprint
  unfold middle
  rw [field_inj rfl (hins _) (hins _), field_inj rfl (hins _) (hins _),
    field_inj rfl (hins _) (hins _), field_inj rfl (hins _) (hins _),
    field_inj rfl (hprint _) (hprint _), field_inj rfl (hprint _) (hprint _)]
  constructor
  · rintro ⟨hforce, htorque, haccel, hrotation, hmass, hmod, hsphere⟩
    exact ⟨hforce.symm, htorque.symm, haccel.symm, hrotation.symm, hmass.symm, hmod.symm,
      hsphere.symm⟩
  · intro h
    exact ⟨h.force.symm, h.torque.symm, h.accel_mod.symm, h.rotation_mod.symm, h.mass.symm,
      h.mass_mod.symm, h.sphere.symm⟩

/-- Implicit copies make up the lists of the bot. -/
theorem copies_of_implicit
    (hall : ∀ e ∈ o.pre_attribs.entries ++ o.post_attribs.entries, e.2.implicit = true) (i : Nat) :
    o.get_pre_attribs_copy draw i = (o.pre_attribs, i)
      ∧ o.get_post_attribs_copy draw i = (o.post_attribs, i) := by
  obtain ⟨hpre, hpost⟩ := List.forall_mem_append.mp hall
  exact ⟨Effector.get_attribs_copy_implicit hpre i, Effector.get_attribs_copy_implicit hpost i⟩

theorem clone_attribs_of_implicit
    (hall : ∀ e ∈ o.pre_attribs.entries ++ o.post_attribs.entries, e.2.implicit = true) (i : Nat) :
    (o.clone draw garbage object_id i).pre_attribs = o.pre_attribs
      ∧ (o.clone draw garbage object_id i).post_attribs = o.post_attribs := by
  obtain ⟨hpre, hpost⟩ := copies_of_implicit hall i
  unfold clone
  rw [hpre]
  dsimp only
  rw [hpost]
  exact ⟨rfl, rfl⟩

/-- With the effectors all copied, the clone tells the same when `PrintsNew`. -/
theorem as_str_clone_iff (hprint : ∀ v, Ch.colon ∉ print v)
    (hall : ∀ e ∈ o.pre_attribs.entries ++ o.post_attribs.entries, e.2.implicit = true) (i : Nat) :
    (o.clone draw garbage object_id i).as_str print = o.as_str print ↔
      PrintsNew print garbage o := by
  obtain ⟨front, back, hsplit⟩ := @as_str_split K print o
  obtain ⟨hpre, hpost⟩ := @clone_attribs_of_implicit K _ draw garbage object_id o hall i
  rw [hsplit (o.clone draw garbage object_id i) rfl rfl rfl rfl rfl hpre hpost,
    hsplit o rfl rfl rfl rfl rfl rfl rfl, ← middle_clone_iff hprint i]
  constructor
  · intro h
    exact List.append_cancel_right (List.append_cancel_left h)
  · intro h
    rw [h]

/-- The copies are faithful exactly when all effectors are copied implicitly and what is not copied
is as new. A copy is compared by what it prints of itself, so that a field which is lost but was
never set does no harm. -/
theorem faithful_iff (hprint : ∀ v, Ch.colon ∉ print v)
    (hpre : ∀ e ∈ o.pre_attribs.entries, ∀ j, e.1 ≠ draw j)
    (hpost : ∀ e ∈ o.post_attribs.entries, ∀ j, e.1 ≠ draw j) :
    Faithful draw print garbage object_id o ↔
      (∀ e ∈ o.pre_attribs.entries ++ o.post_attribs.entries, e.2.implicit = true) ∧
        PrintsNew print garbage o := by
  constructor
  · intro h
    -- ids that were drawn anew would not be those of the list
    have hall : ∀ e ∈ o.pre_attribs.entries ++ o.post_attribs.entries, e.2.implicit = true :=
      List.forall_mem_append.mpr ⟨Effector.implicit_of_ids hpre (h.pre 0).ids,
        Effector.implicit_of_ids hpost (h.post 0).ids⟩
    exact ⟨hall, (as_str_clone_iff hprint hall 0).mp (h.as_str 0)⟩
  · rintro ⟨hall, hnew⟩
    refine ⟨fun i => ?_, fun i => ?_, fun i => ?_⟩
    · rw [(copies_of_implicit hall i).1]
      exact ⟨rfl, rfl⟩
    · rw [(copies_of_implicit hall i).2]
      exact ⟨rfl, rfl⟩
    · exact (as_str_clone_iff hprint hall i).mpr hnew

end Faithful

/-! ## Two bots -/

/-- `stream << v`, of the numbers that a bot of whole coordinates is made with. -/
def printQuarters : Ieee ℚ → Str
  | .nan => str "nan"
  | .inf negative => if negative then str "-inf" else str "inf"
  | .fin x => Decimal.print ⌊x⌋ ++
    if Int.fract x = 1 / 4 then str ".25" else if Int.fract x = 1 / 2 then str ".5" else []

theorem printQuarters_no_colon (v : Ieee ℚ) : Ch.colon ∉ printQuarters v := by
  cases v with
  | nan => decide
  | inf negative => cases negative <;> decide
  | fin x =>
    have hwhole : Ch.colon ∉ Decimal.print ⌊x⌋ := by
      intro h
      rcases Decimal.mem_print h with h | h
      · exact absurd h (by decide)
      · exact absurd h (by decide)
    show Ch.colon ∉ Decimal.print ⌊x⌋ ++ _
    rw [List.mem_append, not_or]
    refine ⟨hwhole, ?_⟩
    split_ifs <;> decide

/-- A bot that was told to drive at half its power. -/
def driving : Bot ℚ :=
  { construct (0, true) 0 ⟨0, 0, 0⟩ with
    pre_attribs :=
      ⟨[(0, .pre ((Pre.construct 100000 200000 12).drive Pre.exactFormats (.fin 50)))], by simp⟩ }

/-- Its copy has another drive in the place of its own, and that one is locked down. -/
theorem driving_not_copied :
    (driving.get_pre_attribs_copy (1 + ·) 0).1.entries.map Prod.fst = [1]
      ∧ (driving.get_pre_attribs_copy (1 + ·) 0).1.entries.map (fun a => a.2.as_str printQuarters)
        = [str "diff_steer::pre=100000,0,200000,1,12,0"]
      ∧ driving.pre_attribs.entries.map (fun a => a.2.as_str printQuarters)
        = [str "diff_steer::pre=100000,0.5,200000,0,12,0"]
      ∧ ¬ Faithful (1 + ·) printQuarters (0, true) 1 driving := by
  refine ⟨by decide +kernel, by decide +kernel, by decide +kernel, fun h => ?_⟩
  have hids : [1] = [0] := (h.pre 0).ids
  exact absurd hids (by decide)

/-- A new bot with a hover on it is copied faithfully. -/
theorem faithful_iff_hover :
    Faithful (1 + ·) printQuarters (0, true) 1
      { construct (0, true) 0 ⟨0, 0, 0⟩ with
        pre_attribs := ⟨[(0, .hover ⟨.fin (5 / 2), .fin (1 / 4), .fin 2⟩)], by simp⟩ } := by
  refine (faithful_iff printQuarters_no_colon ?_ ?_).mpr ⟨?_, ⟨rfl, rfl, rfl, rfl, rfl, rfl, rfl⟩⟩
  · intro e he j
    rw [List.mem_singleton.mp he]
    show 0 ≠ 1 + j
    omega
  · intro e he
    cases he
  · intro e he
    rw [List.mem_singleton.mp he]
    rfl

end Bot

end BotMk1

end Nrtb
