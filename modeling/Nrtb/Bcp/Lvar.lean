import Nrtb.BotMk1.Interpreter
import Nrtb.Radar

/-!
# What a bot control program reads

`cpp/BCPs/target/target.cpp`, lines 33–46, and `cpp/BCPs/kamikaze/kamikaze.cpp`, lines 32–45 and
120–147: `struct lvar`, and how the two programs read the answers of a bot. Numbers are written with
six digits, so that what is read is the number that was written up to its rounding.

Writer and reader are in different programs, and only a text connects them. The words of an answer
are taken off one after the other, and a triad is one word of three numbers, which `Triad.Text`
reads back. What is asked of the numbers is that their text has no comma and no white space, and
that what is read of it is written in the same way again (`Rereads`); whole numbers of 32 bits are
an example.

* `load_lvar`: `load` reads what `bot_mk1::lvar` has written.
* `get_target_contacts`: `get_target` reads the first contact of what the radar has written.
* `programs_read_back`: both, for any bot and any contacts.
-/

namespace Nrtb

open Istream

namespace Bcp

open BotMk1 (Dialect Robot)

variable {K : Type*} [Field K] [LinearOrder K]

/-- `struct lvar` -/
structure Lvar (K : Type*) where
  location : Triad K
  velocity : Triad K
  attitude : Triad K
  rotation : Triad K
deriving DecidableEq

/-- As `lvar` is constructed. -/
def Lvar.zero : Lvar K := ⟨0, 0, 0, 0⟩

/-- `lvar::load` -/
def Lvar.load (scan : Str → Scan K) (l : Lvar K) (data : Str) : Lvar K :=
  let s : State Byte := ⟨data, false⟩
  let (_, s) := Triad.element s
  let (_, s) := Triad.element s
  let (location, s) := Triad.extraction scan s l.location
  let (velocity, s) := Triad.extraction scan s l.velocity
  let (attitude, s) := Triad.extraction scan s l.attitude
  let (rotation, _) := Triad.extraction scan s l.rotation
  ⟨location, velocity, attitude, rotation⟩

/-- `get_target`, on the answer to `radar contacts`. -/
def get_target (scan : Str → Scan K) (contacts : Str) : Lvar K :=
  let s : State Byte := ⟨contacts, false⟩
  let (_, s) := Triad.element s
  let (_, s) := Triad.element s
  let (count, s) := number isspace Radar.scanInt s
  -- a failed extraction stores zero
  if 0 < count.getD 0 then
    let (_, s) := Triad.element s
    let (location, s) := Triad.extraction scan s 0
    let (velocity, _) := Triad.extraction scan s 0
    { (Lvar.zero : Lvar K) with location := location, velocity := velocity }
  else { (Lvar.zero : Lvar K) with location := ⟨-1, 0, 0⟩ }

/-! ## Numbers on the wire -/

/-- What is written is read as `reread` of it, which is written in the same way. -/
structure Rereads (d : Dialect K) (reread : K → K) : Prop where
  print_reread : ∀ v, d.print (reread v) = d.print v
  numeral : ∀ v, Triad.Numeral d.scan d.print (reread v)

/-- A triad, as it is read. -/
def rereadTriad (reread : K → K) (a : Triad K) : Triad K := ⟨reread a.x, reread a.y, reread a.z⟩

omit [LinearOrder K] in
/-- Only the word that is taken decides about what is read. -/
theorem extraction_congr (scan : Str → Scan K) {f f' : State Byte}
    (hword : (Triad.element f).1 = (Triad.element f').1) (b : Triad K) :
    (Triad.extraction scan f b).1 = (Triad.extraction scan f' b).1 := by
  unfold Triad.extraction
  dsimp only
  rw [hword]
  split <;> rfl

section Wire

variable {d : Dialect K} {reread : K → K} (h : Rereads d reread)

include h

theorem Rereads.no_space (v : K) : ∀ c ∈ d.print v, isspace c = false := by
  rw [← h.print_reread]
  exact (h.numeral v).no_space

theorem Rereads.insertion (a : Triad K) :
    Triad.insertion d.print (rereadTriad reread a) = Triad.insertion d.print a := by
  unfold Triad.insertion rereadTriad
  simp only [h.print_reread]

/-- A triad in front of something else. -/
theorem Rereads.extraction (a b : Triad K) {rest : Str} (hrest : rest.head?.all isspace = true) :
    Triad.extraction d.scan ⟨Ch.blank :: (Triad.insertion d.print a ++ rest), false⟩ b
      = (rereadTriad reread a, ⟨rest, false⟩) := by
  have hspace : ∀ c ∈ Triad.insertion d.print a, isspace c = false :=
    Triad.no_space_insertion (h.no_space a.x) (h.no_space a.y) (h.no_space a.z)
  have helement : Triad.element ⟨Ch.blank :: (Triad.insertion d.print a ++ rest), false⟩
      = (Triad.insertion d.print a, ⟨rest, false⟩) := by
    rw [Radar.element_blank, Radar.element_prefix hspace (Radar.insertion_ne_nil a) hrest]
  have hread : (Triad.extraction d.scan ⟨Triad.insertion d.print a, false⟩ b).1
      = rereadTriad reread a := by
    rw [← h.insertion a]
    exact Triad.extraction_insertion (a := rereadTriad reread a) (h.numeral a.x) (h.numeral a.y)
      (h.numeral a.z) b
  refine Prod.ext ?_ ?_
  · rw [← hread]
    exact extraction_congr d.scan (by rw [helement, Triad.element_word hspace]) b
  · rw [Radar.extraction_state, helement]

/-- What a bot says of its position and motion is what the programs read. -/
theorem load_lvar (b : Robot K) (l : Lvar K) :
    l.load d.scan (BotMk1.lvar (b.view d)) = ⟨rereadTriad reread b.location,
      rereadTriad reread b.velocity, rereadTriad reread b.attitude,
      rereadTriad reread b.rotation⟩ := by
  have htext : BotMk1.lvar (b.view d) = str "bot" ++ Ch.blank :: (str "lvar"
      ++ Ch.blank :: (Triad.insertion d.print b.location
      ++ Ch.blank :: (Triad.insertion d.print b.velocity
      ++ Ch.blank :: (Triad.insertion d.print b.attitude
      ++ Ch.blank :: (Triad.insertion d.print b.rotation ++ []))))) := by
    have hblank : str " " = [Ch.blank] := by decide
    simp [BotMk1.lvar, Robot.view, hblank]
  have hsecond : ∀ w : Str, (Ch.blank :: w).head?.all isspace = true := fun _ => rfl
  unfold Lvar.load
  dsimp only
  rw [htext, Radar.element_prefix (no_space_of_all (by decide)) (by decide) (hsecond _)]
  dsimp only
  rw [Radar.element_blank, Radar.element_prefix (no_space_of_all (by decide)) (by decide)
    (hsecond _)]
  dsimp only
  rw [h.extraction b.location l.location (hsecond _)]
  dsimp only
  rw [h.extraction b.velocity l.velocity (hsecond _)]
  dsimp only
  rw [h.extraction b.attitude l.attitude (hsecond _)]
  dsimp only
  rw [h.extraction b.rotation l.rotation rfl]

variable {fl : FloatOps K} {r : Radar K} {c_list : List (SimCore.Panopticon.SensorRec K)}

/-- The target is the first contact that the radar has sent out; without one, its place is where
no contact can be. -/
theorem get_target_contacts (hfew : c_list.length < 2 ^ 31) :
    get_target d.scan (Radar.get_contacts fl d.print r c_list)
      = match (Radar.sweep fl d.print r c_list).sent with
        | [] => { (Lvar.zero : Lvar K) with location := ⟨-1, 0, 0⟩ }
        | c :: _ => ⟨rereadTriad reread (Radar.observe fl r c).2, rereadTriad reread
            (fl.subTriad (Radar.observe fl r c).1.velocity r.parent_velocity), 0, 0⟩ := by
  have hlength : (Radar.sweep fl d.print r c_list).sent.length < 2 ^ 31 := by
    rw [Radar.sweep_eq]
    exact (List.length_filter_le _ _).trans_lt hfew
  generalize hsent : (Radar.sweep fl d.print r c_list).sent = sent at hlength
  have hcount : Radar.IsInt sent.length := ⟨by omega, by exact_mod_cast hlength⟩
  have hreply : Radar.get_contacts fl d.print r c_list = Radar.answer fl d.print r sent := by
    rw [Radar.get_contacts_eq, hsent, CInt.toInt_of_range hcount.1 hcount.2, Radar.answer,
      List.append_assoc]
  have hblank : ∀ w : Str, (Ch.blank :: w).head?.all isspace = true := fun _ => rfl
  unfold get_target
  dsimp only
  rw [hreply, Radar.answer_append,
    Radar.element_prefix (no_space_of_all (by decide)) (by decide) (hblank _)]
  dsimp only
  rw [Radar.element_blank, Radar.element_prefix (no_space_of_all (by decide)) (by decide)
    (hblank _)]
  dsimp only
  rw [number_word isspace Radar.scanInt (by decide) (Radar.isspace_print _)
    (Decimal.print_ne_nil _) (Radar.head_groups sent) (Radar.scanInt_print hcount)]
  dsimp only
  rw [Option.getD_some]
  cases sent with
  | nil => rfl
  | cons c rest =>
    rw [if_pos (by simp), List.flatMap_cons, Radar.group_append, Radar.element_blank,
      Radar.element_prefix (Radar.isspace_print _) (Decimal.print_ne_nil _) (hblank _)]
    dsimp only
    rw [h.extraction _ _ (hblank _)]
    dsimp only
    rw [h.extraction _ _ (Radar.head_groups rest)]
    rfl

end Wire

/-! ## Whole numbers -/

open BotMk1.Robot (whole wholeNumbers landed)

theorem whole_cast (v : ℚ) : whole (whole v) = whole v := by
  simp only [whole, Int.floor_intCast]
  omega

theorem wholeNumbers_rereads : Rereads wholeNumbers fun v => (whole v : ℚ) := by
  have hrange : ∀ v, -2 ^ 31 ≤ whole v ∧ whole v ≤ 2 ^ 31 - 1 := fun v => by
    simp only [whole]
    omega
  have hscan : ∀ v (rest : Str), rest.head?.all (fun c => !Decimal.isDigit c) = true →
      wholeNumbers.scan (Decimal.print (whole v) ++ rest)
        = .good (whole v : ℚ) (Decimal.print (whole v)).length := fun v rest hrest => by
    show BotMk1.Robot.scanWhole _ = _
    rw [BotMk1.Robot.scanWhole,
      Decimal.scan_print_append (hrange v).1 (hrange v).2 rest hrest]
  have hprint : ∀ v : ℚ, wholeNumbers.print (whole v) = Decimal.print (whole v) := fun v =>
    congrArg Decimal.print (whole_cast v)
  refine ⟨hprint, fun v => ⟨?_, ?_, ?_, ?_, ?_⟩⟩
  · rw [hprint]
    intro hmem
    rcases Decimal.mem_print hmem with hminus | hdigit
    · exact absurd hminus (by decide)
    · exact absurd hdigit (by decide)
  · rw [hprint]
    exact Radar.isspace_print _
  · rw [hprint]
    exact Decimal.print_ne_nil _
  · rw [hprint]
    have := hscan v [] rfl
    rwa [List.append_nil] at this
  · rw [hprint]
    exact hscan v [Ch.close] (by decide)

/-- A bot that moves at two units in its turn to the north. -/
def moving : Robot ℚ :=
  { landed with location := ⟨100, -20, 3⟩, velocity := ⟨2, 0, 0⟩, attitude := ⟨0, 0, 1⟩ }

/-- What a bot writes is what its program reads, up to the rounding of the numbers: its position and
motion, and the first contact of its radar. The two sides share no code, only the text that goes
over the socket. -/
theorem programs_read_back {d : Dialect K} {reread : K → K} (h : Rereads d reread) (b : Robot K)
    (l : Lvar K) {fl : FloatOps K} {r : Radar K} {c_list : List (SimCore.Panopticon.SensorRec K)}
    (hfew : c_list.length < 2 ^ 31) :
    l.load d.scan (BotMk1.lvar (b.view d)) = ⟨rereadTriad reread b.location,
        rereadTriad reread b.velocity, rereadTriad reread b.attitude,
        rereadTriad reread b.rotation⟩
      ∧ get_target d.scan (Radar.get_contacts fl d.print r c_list)
        = match (Radar.sweep fl d.print r c_list).sent with
          | [] => { (Lvar.zero : Lvar K) with location := ⟨-1, 0, 0⟩ }
          | c :: _ => ⟨rereadTriad reread (Radar.observe fl r c).2, rereadTriad reread
              (fl.subTriad (Radar.observe fl r c).1.velocity r.parent_velocity), 0, 0⟩ :=
  ⟨load_lvar h b l, get_target_contacts h hfew⟩

theorem programs_read_back_moving :
    (Lvar.zero : Lvar ℚ).load wholeNumbers.scan (BotMk1.lvar (moving.view wholeNumbers))
        = ⟨⟨100, -20, 3⟩, ⟨2, 0, 0⟩, ⟨0, 0, 1⟩, 0⟩
      ∧ get_target wholeNumbers.scan
        (Radar.get_contacts Radar.onAxis wholeNumbers.print
          (Radar.unticked.tick (Radar.atOrigin 5))
          [SimCore.Panopticon.sense (Radar.atOrigin 5), ⟨2, 6, ⟨0, 0, 5⟩, ⟨0, 0, 0⟩, 1⟩])
        = ⟨⟨5, 0, 0⟩, 0, 0, 0⟩ := by
  obtain ⟨hlvar, htarget⟩ := programs_read_back wholeNumbers_rereads moving .zero
    (show [SimCore.Panopticon.sense (Radar.atOrigin 5),
      (⟨2, 6, ⟨0, 0, 5⟩, ⟨0, 0, 0⟩, 1⟩ : SimCore.Panopticon.SensorRec ℚ)].length < 2 ^ 31
      by decide)
  refine ⟨hlvar.trans (by decide +kernel), ?_⟩
  rw [htarget]
  decide +kernel

end Bcp

end Nrtb
