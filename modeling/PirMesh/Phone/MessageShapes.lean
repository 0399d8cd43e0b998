import Mathlib.Tactic.IntervalCases
import PirMesh.Phone.MessageTable
import PirMesh.Phone.SchedulerMessage

/-! # Phone — What the shapes keep (`SigGenericMessage.m`)

For each shape: which parameters it gives back as they were, and which fields it reads back
from its own parameters. -/

namespace PirMesh.GenericMessage

open Nor (Byte toLE ofLE)
open ConfigMessage (SigStepResolution)

/-- Of the parameters in `Valid`, those in `Kept` are given back under the opcode of the class;
of the arguments in `InWidths`, those in `Values` are read back, where the initialiser from
fields sets that opcode. -/
structure Settles (C : MessageClass) (opCode : SigOpCode) (Valid : Option (List Byte) → Prop)
    (Kept : BitVec 16 → Option (List Byte) → Prop) (InWidths Values : C.Args → Prop) :
    Prop where
  octets_iff : ∀ behind p fields, Valid p → C.initWithParameters behind p = some fields →
    (C.opCodeOfParameters = opCode ∧ octets (C.parameters fields) = octets p ↔ Kept behind p)
  fields_iff : C.opCode = opCode → ∀ behind a, InWidths a →
    (C.initWithParameters behind (C.parameters (C.initWith a)) = some (C.initWith a) ↔ Values a)

theorem Settles.of_valid {C : MessageClass} {opCode : SigOpCode}
    {Valid Valid' : Option (List Byte) → Prop} {Kept : BitVec 16 → Option (List Byte) → Prop}
    {InWidths Values : C.Args → Prop} (h : Settles C opCode Valid Kept InWidths Values)
    (hvalid : ∀ p, Valid' p → Valid p) : Settles C opCode Valid' Kept InWidths Values :=
  ⟨fun behind p fields hp => h.octets_iff behind p fields (hvalid p hp), h.fields_iff⟩

/-! ### Formats -/

theorem u8_exact : u8.Exact := .word (by decide)

theorem u16_exact : u16.Exact := .word (by decide)

theorem u24_exact : u24.Exact := .word (by decide)

theorem u40_exact : u40.Exact := .word (by decide)

theorem length_u16 (w : BitVec 16) : (u16.put w).length = 2 := u16_exact.length_put w

theorem put_get_u16 {l : List Byte} (h : l.length = 2) : u16.put (u16.get l) = l :=
  u16_exact.put_get l h

theorem u8_fits (b : Byte) : u8.Fits b := Format.fits_word b.isLt

theorem u16_fits (w : BitVec 16) : u16.Fits w := Format.fits_word w.isLt

namespace SigTransitionTime

theorem rawValue_initWithRawValue : ∀ b : Byte, (initWithRawValue b).rawValue = b := by decide

theorem initWithRawValue_rawValue (t : SigTransitionTime) (h : t.steps.toNat < 64) :
    initWithRawValue t.rawValue = t := by
  obtain ⟨steps, r⟩ := t
  revert steps
  cases r <;> decide

theorem format_exact : format.Exact :=
  u8_exact.record fun _ => rawValue_initWithRawValue _

theorem format_fits {t : SigTransitionTime} (h : t.steps.toNat < 64) : format.Fits t :=
  Format.fits_record (u8_fits _) (initWithRawValue_rawValue t h)

end SigTransitionTime

theorem range_exact : range.Exact := (u16_exact.pair u16_exact).record fun _ => rfl

theorem range_fits (r : Range) : range.Fits r :=
  Format.fits_record (Format.fits_pair u16_exact (u16_fits _) (u16_fits _)) rfl

theorem rangeStatus_exact : rangeStatus.Exact := (u8_exact.pair range_exact).record fun _ => rfl

theorem rangeStatus_fits (r : RangeStatus) : rangeStatus.Fits r :=
  Format.fits_record (Format.fits_pair u8_exact (u8_fits _) (range_fits _)) rfl

theorem batteryStatus_exact : batteryStatus.Exact :=
  (u8_exact.pair (u24_exact.pair (u24_exact.pair u8_exact))).record fun _ => rfl

/-- A number of minutes that fits, or the value for unknown. -/
theorem clamped_lt (t : BitVec 32) :
    (if t ≠ 0xFFFFFF then if t.toNat < 0xFFFFFE then t else 0xFFFFFE else 0xFFFFFF).toNat <
      256 ^ 3 := by
  split_ifs with h hlt
  · exact hlt.trans (by decide)
  · decide
  · decide

theorem batteryStatus_fits (a : BatteryArgs) : batteryStatus.Fits a.status :=
  Format.fits_record (Format.fits_pair u8_exact (u8_fits _)
    (Format.fits_pair u24_exact (Format.fits_word (clamped_lt _))
      (Format.fits_pair u24_exact (Format.fits_word (clamped_lt _)) (u8_fits _)))) rfl

theorem zoneChange_exact : zoneChange.Exact := (u8_exact.pair u40_exact).record fun _ => rfl

theorem zoneChange_fits {z : ZoneChange} (h : z.TAIOfZoneChange.toNat < 2 ^ 40) :
    zoneChange.Fits z :=
  Format.fits_record (Format.fits_pair u8_exact (u8_fits _) (Format.fits_word h)) rfl

theorem zoneStatus_exact : zoneStatus.Exact := (u8_exact.pair zoneChange_exact).record fun _ => rfl

theorem Delta.word_ofWord (w : BitVec 16) : (Delta.ofWord w).word = w := by
  refine BitVec.eq_of_getLsbD_eq fun i hi => ?_
  unfold Delta.word Delta.ofWord
  interval_cases i <;> simp

theorem Delta.ofWord_word (d : Delta) (h : d.delta.toNat < 2 ^ 15) (hp : d.padding.toNat < 2) :
    Delta.ofWord d.word = d := by
  obtain ⟨delta, padding⟩ := d
  have h15 : delta[15] = false := Nat.testBit_lt_two_pow h
  have hzero : ∀ j, 0 < j → padding.getLsbD j = false := fun j hj =>
    Nat.testBit_lt_two_pow (lt_of_lt_of_le hp (Nat.pow_le_pow_right Nat.two_pos hj))
  unfold Delta.word Delta.ofWord
  congr 1
  · refine BitVec.eq_of_getLsbD_eq fun i hi => ?_
    interval_cases i <;> simp [h15]
  · refine BitVec.eq_of_getLsbD_eq fun i hi => ?_
    rcases Nat.eq_zero_or_pos i with rfl | hpos
    · simp
    · rw [hzero i hpos]
      simp [Nat.ne_of_gt hpos]

theorem delta_exact : delta.Exact := u16_exact.record fun _ => Delta.word_ofWord _

theorem deltaChange_exact : deltaChange.Exact := (delta_exact.pair u40_exact).record fun _ => rfl

structure DeltaChange.InWidths (d : DeltaChange) : Prop where
  delta : d.taiUTCDeltaNew.delta.toNat < 2 ^ 15
  padding : d.taiUTCDeltaNew.padding.toNat < 2
  change : d.TAIOfDeltaChange.toNat < 2 ^ 40

theorem deltaChange_fits {d : DeltaChange} (h : d.InWidths) : deltaChange.Fits d :=
  Format.fits_record (Format.fits_pair delta_exact
    (Format.fits_record (u16_fits _) (Delta.ofWord_word _ h.delta h.padding))
      (Format.fits_word h.change)) rfl

theorem deltaStatus_exact : deltaStatus.Exact :=
  (delta_exact.pair deltaChange_exact).record fun _ => rfl

/-! ### Shapes -/

variable {opCode : SigOpCode} {Valid : Option (List Byte) → Prop}

theorem getMessage_settles {InWidths : Unit → Prop} :
    Settles (getMessage opCode) opCode Valid (fun _ _ => True) InWidths (fun _ => True) where
  octets_iff behind p fields _ h := by
    refine iff_of_true ⟨rfl, ?_⟩ trivial
    have hlen : (octets p).length = 0 := (Option.ite_none_right_eq_some.mp h).1
    exact (List.length_eq_zero_iff.mp hlen).symm
  fields_iff _ _ _ _ := iff_of_true rfl trivial

theorem fixedMessage_settles {Fields Args : Type} {format : Format Fields}
    {initWith : Args → Fields} {InWidths : Args → Prop} (hexact : format.Exact)
    (hfits : ∀ a, InWidths a → format.Fits (initWith a)) :
    Settles (fixedMessage opCode format initWith) opCode Valid (fun _ _ => True) InWidths
      (fun _ => True) where
  octets_iff behind p fields _ h := by
    obtain ⟨data, rfl, h⟩ := Option.bind_eq_some_iff.mp h
    obtain ⟨hlen, hget⟩ := Option.ite_none_right_eq_some.mp h
    refine iff_of_true ⟨rfl, ?_⟩ trivial
    rw [← Option.some.inj hget]
    exact hexact.put_get data hlen
  fields_iff _ behind a ha := by
    refine iff_of_true ?_ trivial
    show (if (format.put (initWith a)).length = format.size then _ else none) = some _
    rw [if_pos (hexact.length_put _)]
    exact congrArg some (hfits a ha)

theorem genericPowerRangeStatus_settles {InWidths : RangeStatus → Prop} :
    Settles sigGenericPowerRangeStatus .genericPowerRangeStatus Valid (fun _ _ => False) InWidths
      (fun _ => True) where
  octets_iff _ _ _ _ _ := iff_of_false (fun h => SigOpCode.noConfusion h.1) id
  fields_iff := by
    have hfixed : Settles (fixedMessage .genericPowerRangeStatus rangeStatus id)
        .genericPowerRangeStatus Valid (fun _ _ => True) InWidths (fun _ => True) :=
      fixedMessage_settles rangeStatus_exact fun a _ => rangeStatus_fits a
    exact hfixed.fields_iff

theorem valueTid_exact : (u16.pair u8).Exact := u16_exact.pair u8_exact

theorem valueTid_fits (value : BitVec 16) (tid : Byte) : (u16.pair u8).Fits (value, tid) :=
  Format.fits_pair u16_exact (u16_fits _) (u8_fits _)

theorem timeDelay_exact : (SigTransitionTime.format.pair u8).Exact :=
  SigTransitionTime.format_exact.pair u8_exact

theorem targetTime_exact : (u16.pair SigTransitionTime.format).Exact :=
  u16_exact.pair SigTransitionTime.format_exact

/-- A delay is lost where there is no time. -/
theorem timedSet_settles :
    Settles (timedSet opCode) opCode Valid (fun _ _ => True)
      (fun a => ∀ time, a.2.1 = some time → time.steps.toNat < 64)
      (fun a => a.2.1 = none → a.2.2 = 0) where
  octets_iff behind p fields _ h := by
    obtain ⟨data, rfl, h⟩ := Option.bind_eq_some_iff.mp h
    obtain ⟨⟨⟨value, tid⟩, tail⟩, hget, rfl⟩ := Option.map_eq_some_iff.mp h
    refine iff_of_true ⟨rfl, ?_⟩ trivial
    rw [← Format.putTail_getTail valueTid_exact timeDelay_exact hget]
    cases tail <;> rfl
  fields_iff _ behind a ha := by
    obtain ⟨value, time, delay⟩ := a
    cases time with
    | none =>
      have hread : (timedSet opCode).initWithParameters behind
          ((timedSet opCode).parameters ((timedSet opCode).initWith (value, none, delay))) =
            some ⟨value, 0, none, 0⟩ :=
        congrArg (Option.map TimedSet.ofParts)
          (Format.getTail_head valueTid_exact (valueTid_fits value 0))
      rw [hread]
      constructor
      · intro h _
        exact (congrArg TimedSet.delay (Option.some.inj h)).symm
      · intro h
        have hdelay : delay = 0 := h rfl
        rw [hdelay]
        rfl
    | some time =>
      refine iff_of_true ?_ (fun h => absurd h (Option.some_ne_none _))
      exact congrArg (Option.map TimedSet.ofParts)
        (Format.getTail_both valueTid_exact timeDelay_exact (by decide) (valueTid_fits value 0)
        (Format.fits_pair (p := (time, delay)) SigTransitionTime.format_exact
          (SigTransitionTime.format_fits (ha time rfl)) (u8_fits delay)))

/-- So is a target. -/
theorem timedStatus_settles :
    Settles (timedStatus opCode) opCode Valid (fun _ _ => True)
      (fun a => ∀ time, a.2.2 = some time → time.steps.toNat < 64)
      (fun a => a.2.2 = none → a.2.1 = 0) where
  octets_iff behind p fields _ h := by
    obtain ⟨data, rfl, h⟩ := Option.bind_eq_some_iff.mp h
    obtain ⟨⟨present, tail⟩, hget, rfl⟩ := Option.map_eq_some_iff.mp h
    refine iff_of_true ⟨rfl, ?_⟩ trivial
    rw [← Format.putTail_getTail u16_exact targetTime_exact hget]
    cases tail <;> rfl
  fields_iff _ behind a ha := by
    obtain ⟨present, target, time⟩ := a
    cases time with
    | none =>
      have hread : (timedStatus opCode).initWithParameters behind
          ((timedStatus opCode).parameters
            ((timedStatus opCode).initWith (present, target, none))) =
              some ⟨present, 0, none⟩ :=
        congrArg (Option.map TimedStatus.ofParts) (Format.getTail_head u16_exact (u16_fits present))
      rw [hread]
      constructor
      · intro h _
        exact (congrArg TimedStatus.target (Option.some.inj h)).symm
      · intro h
        have htarget : target = 0 := h rfl
        rw [htarget]
        rfl
    | some time =>
      refine iff_of_true ?_ (fun h => absurd h (Option.some_ne_none _))
      exact congrArg (Option.map TimedStatus.ofParts)
        (Format.getTail_both u16_exact targetTime_exact (by decide) (u16_fits present)
        (Format.fits_pair (p := (target, time)) u16_exact (u16_fits target)
          (SigTransitionTime.format_fits (ha time rfl))))

theorem dataMessage_settles {InWidths Values : Empty → Prop} :
    Settles (dataMessage opCode) opCode Valid (fun _ _ => True) InWidths Values where
  octets_iff behind p fields _ h := by
    refine iff_of_true ⟨rfl, ?_⟩ trivial
    rw [show fields = p from (Option.some.inj h).symm]
    rfl
  fields_iff _ _ a := a.elim

theorem propertyData_settles {InWidths Values : Empty → Prop} :
    Settles (propertyData opCode) opCode Valid (fun _ _ => True) InWidths Values where
  octets_iff behind p fields _ h := by
    obtain ⟨data, rfl, h⟩ := Option.bind_eq_some_iff.mp h
    refine iff_of_true ⟨rfl, ?_⟩ trivial
    rw [← Option.some.inj (Option.ite_none_right_eq_some.mp h).2]
    rfl
  fields_iff _ _ a := a.elim

/-- A property ID that a class has is not 0. -/
def PropertyNonzero (parameters : Option (List Byte)) : Prop :=
  2 ≤ (octets parameters).length → u16.get ((octets parameters).take 2) ≠ 0

theorem octets_ite {P : Prop} [Decidable P] (l : List Byte) :
    octets (if P then some l else none) = if P then l else [] := by
  split_ifs <;> rfl

theorem put_ne_nil (w : BitVec 16) : u16.put w ≠ [] :=
  List.ne_nil_of_length_pos (by rw [length_u16]; decide)

/-- Without octets the parameters are those of whatever is behind. -/
theorem optionalProperty_settles {InWidths : BitVec 16 → Prop} :
    Settles (optionalProperty opCode) opCode PropertyNonzero
      (fun behind p => p = some [] → behind = 0) InWidths (fun _ => True) where
  octets_iff := by
    intro behind p (fields : BitVec 16) hp h
    show opCode = opCode ∧ octets (if fields ≠ 0 then some (u16.put fields) else none) = _ ↔ _
    rw [octets_ite]
    cases p with
    | none =>
      have hzero : 0 = fields := Option.some.inj h
      refine iff_of_true ⟨rfl, ?_⟩ (fun hnone => absurd hnone (Option.some_ne_none _).symm)
      rw [if_neg (not_not_intro hzero.symm)]
      rfl
    | some data =>
      change (if data.length = 0 then some behind else if data.length = 2 then some (u16.get data)
        else none) = some fields at h
      split_ifs at h with h0 h2
      · have hnil : data = [] := List.length_eq_zero_iff.mp h0
        rw [← Option.some.inj h, hnil]
        constructor
        · intro hsame _
          by_contra hne
          rw [if_pos hne] at hsame
          exact put_ne_nil behind hsame.2
        · intro hzero
          rw [if_neg (not_not_intro (hzero rfl))]
          exact ⟨rfl, rfl⟩
      · have hne : u16.get data ≠ 0 := by
          have := hp h2.ge
          rwa [show octets (some data) = data from rfl, List.take_of_length_le h2.le] at this
        rw [← Option.some.inj h, if_pos hne]
        refine iff_of_true ⟨rfl, put_get_u16 h2⟩ fun hnil => ?_
        rw [Option.some.inj hnil] at h2
        exact absurd h2 (by decide)
  fields_iff := by
    intro _ behind (propertyID : BitVec 16) _
    refine iff_of_true ?_ trivial
    show (optionalProperty opCode).initWithParameters behind
      (if propertyID ≠ 0 then some (u16.put propertyID) else none) = some propertyID
    split_ifs with hne
    · show (if (u16.put propertyID).length = 0 then some behind else
        if (u16.put propertyID).length = 2 then some (u16.get (u16.put propertyID)) else none) = _
      rw [if_neg (by rw [length_u16]; decide), if_pos (length_u16 _), u16_fits]
    · exact congrArg some (not_not.mp hne).symm

/-! ### A property ID in front -/

theorem leadingProperty_eq_some {p : Option (List Byte)} {propertyID : BitVec 16} :
    leadingProperty p = some propertyID ↔
      2 ≤ (octets p).length ∧ u16.get ((octets p).take 2) = propertyID := by
  cases p with
  | none => exact iff_of_false (Option.some_ne_none _).symm fun h => absurd h.1 (by decide)
  | some data => exact Option.ite_none_right_eq_some.trans (and_congr_right' Option.some_inj)

/-- What a property ID is written as is all of the parameters where nothing follows it. -/
theorem put_leading {p : Option (List Byte)} {propertyID : BitVec 16}
    (h : leadingProperty p = some propertyID) :
    u16.put propertyID = octets p ↔ (octets p).length = 2 := by
  obtain ⟨hlen, rfl⟩ := leadingProperty_eq_some.mp h
  rw [put_get_u16 (List.length_take_of_le hlen)]
  constructor
  · intro htake
    rw [← htake]
    exact List.length_take_of_le hlen
  · exact fun h2 => List.take_of_length_le h2.le

theorem leadingProperty_put (w : BitVec 16) : leadingProperty (some (u16.put w)) = some w := by
  have hlen := length_u16 w
  refine leadingProperty_eq_some.mpr ⟨hlen.ge, ?_⟩
  rw [show octets (some (u16.put w)) = u16.put w from rfl, List.take_of_length_le hlen.le, u16_fits]

theorem leadingProperty_ne_zero {p : Option (List Byte)} {propertyID : BitVec 16}
    (hp : PropertyNonzero p) (h : leadingProperty p = some propertyID) : propertyID ≠ 0 := by
  obtain ⟨hlen, rfl⟩ := leadingProperty_eq_some.mp h
  exact hp hlen

theorem requiredProperty_settles {InWidths : BitVec 16 → Prop} :
    Settles (requiredProperty opCode) opCode PropertyNonzero
      (fun _ p => (octets p).length = 2) InWidths (fun a : BitVec 16 => a ≠ 0) where
  octets_iff := by
    intro behind p (propertyID : BitVec 16) hp h
    have hgiven : octets ((requiredProperty opCode).parameters propertyID) = u16.put propertyID :=
      (octets_ite _).trans (if_pos (leadingProperty_ne_zero hp h))
    rw [hgiven, put_leading h]
    exact and_iff_right rfl
  fields_iff := by
    intro _ behind (propertyID : BitVec 16) _
    show leadingProperty (if propertyID ≠ 0 then some (u16.put propertyID) else none) =
      some propertyID ↔ _
    split_ifs with hne
    · exact iff_of_true (leadingProperty_put propertyID) hne
    · exact iff_of_false (Option.some_ne_none _).symm hne

/-- Every initialiser of the request sets the opcode of another message. -/
theorem sensorCadenceGet_settles {InWidths Values : BitVec 16 → Prop} :
    Settles sigSensorCadenceGet .sensorCadenceGet Valid (fun _ _ => False) InWidths Values where
  octets_iff _ _ _ _ _ := iff_of_false (fun h => SigOpCode.noConfusion h.1) id
  fields_iff h := SigOpCode.noConfusion h

theorem sensorSettingGet_settles {InWidths : SettingGet → Prop} :
    Settles sigSensorSettingGet .sensorSettingGet PropertyNonzero
      (fun _ p => (octets p).length = 2) InWidths
      (fun a => a.propertyID ≠ 0 ∧ a.settingPropertyID = 0) where
  octets_iff := by
    intro behind p (fields : SettingGet) hp h
    obtain ⟨propertyID, hlead, rfl⟩ := Option.map_eq_some_iff.mp h
    have hgiven : octets (sigSensorSettingGet.parameters ⟨propertyID, 0⟩) = u16.put propertyID :=
      (octets_ite _).trans (if_pos (leadingProperty_ne_zero hp hlead))
    rw [hgiven, put_leading hlead]
    exact and_iff_right rfl
  fields_iff := by
    intro _ behind (a : SettingGet) _
    show (leadingProperty (if a.propertyID ≠ 0 then some (u16.put a.propertyID) else none)).map
      (fun propertyID => (⟨propertyID, 0⟩ : SettingGet)) = some a ↔ _
    split_ifs with hne
    · rw [leadingProperty_put]
      constructor
      · intro h
        exact ⟨hne, (congrArg SettingGet.settingPropertyID (Option.some.inj h)).symm⟩
      · intro h
        rw [← h.2]
        rfl
    · exact iff_of_false (Option.some_ne_none _).symm fun h => hne h.1

theorem sensorSeriesGet_settles {InWidths : BitVec 16 × List Byte × List Byte → Prop} :
    Settles sigSensorSeriesGet .sensorSeriesGet Valid (fun _ _ => True) InWidths
      (fun _ => False) where
  octets_iff := by
    intro behind p (fields : SeriesGet) _ h
    obtain ⟨propertyID, -, rfl⟩ := Option.map_eq_some_iff.mp h
    exact iff_of_true ⟨rfl, rfl⟩ trivial
  fields_iff _ _ _ _ := iff_of_false (Option.some_ne_none _).symm id

theorem rawMessage_settles {Head : Type} {head : Format Head} {propertyID : Head → BitVec 16}
    {InWidths : Head × List Byte → Prop} (hexact : head.Exact) (hfits : ∀ a, head.Fits a)
    (hvalid : ∀ p, Valid p → head.size ≤ (octets p).length →
      propertyID (head.get ((octets p).take head.size)) ≠ 0) :
    Settles (rawMessage opCode head propertyID) opCode Valid (fun _ _ => True) InWidths
      (fun a => propertyID a.1 ≠ 0) where
  octets_iff := by
    intro behind p (fields : Head × List Byte) hp h
    obtain ⟨data, rfl, h⟩ := Option.bind_eq_some_iff.mp h
    obtain ⟨hlen, hget⟩ := Option.ite_none_right_eq_some.mp h
    refine iff_of_true ⟨rfl, ?_⟩ trivial
    rw [← Option.some.inj hget]
    refine ((octets_ite _).trans (if_pos (hvalid _ hp hlen))).trans ?_
    show head.put (head.get (data.take head.size)) ++ data.drop head.size = data
    rw [hexact.put_get _ (List.length_take_of_le hlen), List.take_append_drop]
  fields_iff := by
    intro _ behind (a : Head × List Byte) _
    show (if propertyID a.1 ≠ 0 then some (head.put a.1 ++ a.2) else none).bind
      (fun data => if head.size ≤ data.length then
        some (head.get (data.take head.size), data.drop head.size) else none) = some a ↔ _
    split_ifs with hne
    · refine iff_of_true ?_ hne
      show (if head.size ≤ (head.put a.1 ++ a.2).length then _ else none) = _
      rw [if_pos (by rw [List.length_append, hexact.length_put]; exact Nat.le_add_right ..),
        List.take_left' (hexact.length_put _), List.drop_left' (hexact.length_put _), hfits]
    · exact iff_of_false (Option.some_ne_none _).symm hne

/-- The request's own initialisers set its opcode, and the decoded one has another. -/
theorem sensorColumnGet_settles {InWidths : BitVec 16 × List Byte → Prop} :
    Settles sigSensorColumnGet .sensorColumnGet Valid (fun _ _ => False) InWidths
      (fun a => a.1 ≠ 0 ∧ a.2 ≠ []) where
  octets_iff _ _ _ _ _ := iff_of_false (fun h => SigOpCode.noConfusion h.1) id
  fields_iff := by
    intro _ behind (a : BitVec 16 × List Byte) _
    show sigSensorColumnGet.initWithParameters behind
      (if a.1 ≠ 0 then some (u16.put a.1 ++ a.2) else none) = some (⟨a.1, some a.2⟩ : ColumnGet) ↔ _
    split_ifs with hne
    · show (if 2 < (u16.put a.1 ++ a.2).length then
        some (⟨u16.get ((u16.put a.1 ++ a.2).take 2), some ((u16.put a.1 ++ a.2).drop 2)⟩ :
          ColumnGet) else none) = _ ↔ _
      rw [List.length_append, length_u16, List.take_left' (length_u16 _),
        List.drop_left' (length_u16 _), u16_fits]
      by_cases hnil : a.2 = []
      · rw [hnil]
        exact iff_of_false (Option.some_ne_none _).symm fun h => h.2 rfl
      · rw [if_pos (Nat.lt_add_of_pos_right (List.length_pos_iff.mpr hnil))]
        exact iff_of_true rfl ⟨hne, hnil⟩
    · refine iff_of_false (fun h => ?_) fun h => hne h.1
      exact Option.some_ne_none _ (congrArg ColumnGet.rawValueX (Option.some.inj h)).symm

end PirMesh.GenericMessage
