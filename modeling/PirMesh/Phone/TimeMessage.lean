import Mathlib.Tactic.IntervalCases
import PirMesh.Phone.MessageShapes

/-! # Phone — Times and schedules (`SigModel.m`, `SigGenericMessage.m`)

A time is given back with four octets of its seconds, and with the sub-seconds in the place of
the difference to UTC.  The map of a schedule loses its last bit, and its list comes back in
one order only. -/

namespace PirMesh.GenericMessage

open Nor (Byte toLE ofLE)

variable {opCode : SigOpCode} {Valid : Option (List Byte) → Prop}

/-! ### Times -/

theorem get_pair (x y : Byte) : u16.get [x, y] = (y ++ x : BitVec 16) := by
  refine BitVec.eq_of_toNat_eq ?_
  rw [BitFields.toNat_append_add]
  show (x.toNat + 256 * (y.toNat + 256 * 0)) % 2 ^ 16 = _
  have hx := x.isLt
  have hy := y.isLt
  omega

theorem get_five_and (a b c d e : Byte) :
    u40.get [a, b, c, d, e] &&& 0xFFFFFFFF = u40.get [a, b, c, d, 0] := by
  refine BitVec.eq_of_toNat_eq ?_
  rw [BitVec.toNat_and, show (0xFFFFFFFF : BitVec 64).toNat = 2 ^ 32 - 1 from rfl,
    Nat.and_two_pow_sub_one_eq_mod]
  show (a.toNat + 256 * (b.toNat + 256 * (c.toNat + 256 * (d.toNat + 256 * (e.toNat + 256 * 0)))))
    % 2 ^ 64 % 2 ^ 32 =
      (a.toNat + 256 * (b.toNat + 256 * (c.toNat + 256 * (d.toNat + 256 * (0 + 256 * 0))))) % 2 ^ 64
  have ha := a.isLt
  have hb := b.isLt
  have hc := c.isLt
  have hd := d.isLt
  have he := e.isLt
  omega

theorem getLsbD_get_pair (x y : Byte) (i : ℕ) :
    (u16.get [x, y]).getLsbD i = if i < 8 then x.getLsbD i else y.getLsbD (i - 8) := by
  rw [get_pair]
  exact BitVec.getLsbD_append

theorem authority_word (s x y : Byte) :
    ((((u16.get [x, y] >>> 15) &&& 0b1).setWidth 8).setWidth 16 <<< 15) ||| s.setWidth 16 =
      u16.get [s, y &&& 0x80] := by
  refine BitVec.eq_of_getLsbD_eq fun i hi => ?_
  rw [getLsbD_get_pair, BitVec.getLsbD_or, BitVec.getLsbD_shiftLeft, BitVec.getLsbD_setWidth,
    BitVec.getLsbD_setWidth, BitVec.getLsbD_setWidth, BitVec.getLsbD_and,
    BitVec.getLsbD_ushiftRight, getLsbD_get_pair, BitVec.getLsbD_and]
  interval_cases i <;> simp

namespace SigTimeModel

theorem getTimeParameters_initWithParameters (a0 a1 a2 a3 a4 a5 a6 a7 a8 a9 : Byte) :
    (initWithParameters [a0, a1, a2, a3, a4, a5, a6, a7, a8, a9]).getTimeParameters =
      [a0, a1, a2, a3, 0, a5, a6, a5, a8 &&& 0x80, a9] := by
  show u40.put (u40.get [a0, a1, a2, a3, a4] &&& 0xFFFFFFFF) ++ [a5, a6] ++
    u16.put (((((u16.get [a7, a8] >>> 15) &&& 0b1).setWidth 8).setWidth 16 <<< 15) |||
      a5.setWidth 16) ++ [a9] = _
  rw [get_five_and, authority_word, put_get_u16 rfl, u40_exact.put_get _ rfl]
  rfl

/-- The values of the wire. -/
structure InWidths (t : SigTimeModel) : Prop where
  seconds : t.TAISeconds.toNat < 2 ^ 40
  authority : t.timeAuthority.toNat < 2
  delta : t.taiUTCDelta.toNat < 2 ^ 15

theorem toNat_and_low (w : BitVec 64) : (w &&& 0xFFFFFFFF).toNat = w.toNat % 2 ^ 32 := by
  rw [BitVec.toNat_and, show (0xFFFFFFFF : BitVec 64).toNat = 2 ^ 32 - 1 from rfl,
    Nat.and_two_pow_sub_one_eq_mod]

theorem and_low_eq_iff (w : BitVec 64) : w &&& 0xFFFFFFFF = w ↔ w.toNat < 2 ^ 32 := by
  rw [← BitVec.toNat_inj, toNat_and_low]
  constructor
  · intro h
    rw [← h]
    exact Nat.mod_lt _ (by decide)
  · exact Nat.mod_eq_of_lt

/-- The bit of the authority, over the sub-seconds. -/
theorem authority_bit {authority : Byte} (h : authority.toNat < 2) (s : Byte) :
    ((((authority.setWidth 16 <<< 15) ||| s.setWidth 16 : BitVec 16) >>> 15) &&& 0b1).setWidth 8 =
      authority := by
  refine BitVec.eq_of_getLsbD_eq fun i hi => ?_
  rcases Nat.eq_zero_or_pos i with rfl | hpos
  · simp
  · have hzero : authority.getLsbD i = false :=
      Nat.testBit_lt_two_pow (lt_of_lt_of_le h (Nat.pow_le_pow_right Nat.two_pos hpos))
    rw [hzero]
    simp [Nat.ne_of_gt hpos]

theorem low_bits (authority s : Byte) :
    ((authority.setWidth 16 <<< 15) ||| s.setWidth 16 : BitVec 16) &&& 0x7FFF = s.setWidth 16 := by
  refine BitVec.eq_of_getLsbD_eq fun i hi => ?_
  interval_cases i <;> simp

theorem initWithParameters_getTimeParameters {t : SigTimeModel} (h : t.InWidths) :
    initWithParameters t.getTimeParameters =
      { t with
        TAISeconds := t.TAISeconds &&& 0xFFFFFFFF
        taiUTCDelta := t.subSeconds.setWidth 16 } := by
  have hseconds : u40.get (u40.put (t.TAISeconds &&& 0xFFFFFFFF)) =
      t.TAISeconds &&& 0xFFFFFFFF := by
    refine Format.fits_word (lt_of_le_of_lt ?_ h.seconds)
    rw [toNat_and_low]
    exact Nat.mod_le _ _
  have hword := u16_fits ((t.timeAuthority.setWidth 16 <<< 15) ||| t.subSeconds.setWidth 16)
  show (⟨u40.get (u40.put (t.TAISeconds &&& 0xFFFFFFFF)), t.subSeconds, t.uncertainty,
    ((u16.get (u16.put _) >>> 15) &&& 0b1).setWidth 8, u16.get (u16.put _) &&& 0x7FFF,
      t.timeZoneOffset⟩ : SigTimeModel) = _
  rw [hseconds, hword, authority_bit h.authority, low_bits]

end SigTimeModel

/-- Octets of a time that the class gives back. -/
def TimeKept (data : List Byte) : Prop :=
  data.getD 4 0 = 0 ∧ data.getD 7 0 = data.getD 5 0 ∧ data.getD 8 0 &&& 0x7F = 0

theorem and_high_eq_iff : ∀ b : Byte, b &&& 0x80 = b ↔ b &&& 0x7F = 0 := by decide

theorem time_settles {Args : Type} {initWith : Args → SigTimeModel} :
    Settles (fixedMessage opCode SigTimeModel.format initWith) opCode Valid
      (fun _ p => TimeKept (octets p)) (fun a => (initWith a).InWidths)
      (fun a => (initWith a).TAISeconds.toNat < 2 ^ 32 ∧
        (initWith a).taiUTCDelta = (initWith a).subSeconds.setWidth 16) where
  octets_iff := by
    intro behind p t _ h
    obtain ⟨data, rfl, hget⟩ := Option.bind_eq_some_iff.mp h
    obtain ⟨hlen, ht⟩ := Option.ite_none_right_eq_some.mp hget
    rw [← Option.some.inj ht]
    match data, hlen with
    | [a0, a1, a2, a3, a4, a5, a6, a7, a8, a9], _ =>
      refine (and_iff_right rfl).trans ?_
      show (SigTimeModel.initWithParameters
        [a0, a1, a2, a3, a4, a5, a6, a7, a8, a9]).getTimeParameters = _ ↔ _
      rw [SigTimeModel.getTimeParameters_initWithParameters]
      show [a0, a1, a2, a3, 0, a5, a6, a5, a8 &&& 0x80, a9] =
        [a0, a1, a2, a3, a4, a5, a6, a7, a8, a9] ↔ a4 = 0 ∧ a7 = a5 ∧ a8 &&& 0x7F = 0
      simp only [List.cons.injEq, true_and, and_true, and_high_eq_iff]
      rw [eq_comm (a := a4), eq_comm (a := a7)]
  fields_iff := by
    intro _ behind a ha
    show some (SigTimeModel.initWithParameters (initWith a).getTimeParameters) =
      some (initWith a) ↔ _
    rw [Option.some_inj, SigTimeModel.initWithParameters_getTimeParameters ha]
    constructor
    · intro h
      exact ⟨(SigTimeModel.and_low_eq_iff _).mp (congrArg SigTimeModel.TAISeconds h),
        (congrArg SigTimeModel.taiUTCDelta h).symm⟩
    · intro h
      rw [(SigTimeModel.and_low_eq_iff _).mpr h.1, ← h.2]

/-! ### Entries of a schedule -/

theorem schedulerAction_settles :
    Settles (schedulerAction opCode) opCode Valid (fun _ _ => True)
      (fun a : SchedulerModel => a.sceneId.toNat < 2 ^ 16) (fun _ => True) where
  octets_iff := by
    intro behind p model _ h
    obtain ⟨data, rfl, hget⟩ := Option.bind_eq_some_iff.mp h
    refine iff_of_true ⟨rfl, ?_⟩ trivial
    unfold SigSchedulerActionStatus.initWithParameters at hget
    split_ifs at hget with hlen
    rw [← Option.some.inj hget]
    have h10 : data.length = 10 := not_not.mp hlen
    have hdata : (Format.word 64 8).put ((Format.word 64 8).get (data.take 8)) = data.take 8 :=
      (Format.Exact.word (by decide)).put_get _ (List.length_take_of_le (h10 ▸ by decide))
    have hscene : u16.put (u16.get (data.drop 8)) = data.drop 8 :=
      put_get_u16 (by rw [List.length_drop, h10])
    show toLE 8 (BitVec.ofNat 64 (ofLE (data.take 8))).toNat ++
      toLE 2 ((BitVec.ofNat 64 (ofLE (data.drop 8))).setWidth 16).toNat = data
    rw [BitVec.setWidth_ofNat_of_le (by decide)]
    exact (congrArg₂ _ hdata hscene).trans (List.take_append_drop 8 data)
  fields_iff := by
    intro _ behind (a : SchedulerModel) ha
    refine iff_of_true ((initWithParameters_parameters a).trans ?_) trivial
    rw [(sceneId_setWidth_iff _).mpr ha]
    rfl

/-! ### The map of a scheduler status -/

/-- The map that a list is written as. -/
def schedulerMap (schedulers : List ℕ) : BitVec 16 :=
  schedulers.foldl (fun tem16 schedulerID => tem16 ||| 1#16 <<< (0xF - schedulerID)) 0

theorem initWithParameters_put (map : BitVec 16) :
    SigSchedulerStatus.initWithParameters (u16.put map) = some (decodedSchedulers map) :=
  initWithParameters_map map

theorem getLsbD_schedulerMap (schedulers : List ℕ) {j : ℕ} (hj : j < 16) :
    (schedulerMap schedulers).getLsbD j = true ↔ ∃ s ∈ schedulers, 15 - s = j := by
  have hloop := BitFields.getLsbD_foldl_or schedulers (fun _ => true) (fun s => 0xF - s) 0#16 hj
  simp only [if_true] at hloop
  show (schedulers.foldl _ 0#16).getLsbD j = true ↔ _
  rw [hloop, BitVec.getLsbD_zero, Bool.false_or, List.any_eq_true]
  simp

/-- The list of a map comes back as the map without its last bit. -/
theorem schedulerMap_decoded (map : BitVec 16) :
    schedulerMap (decodedSchedulers map) = map ↔ map.getLsbD 15 = false := by
  constructor
  · intro h
    have hbit := getLsbD_parameters map (j := 15) (by decide)
    rw [show (decodedSchedulers map).foldl _ 0#16 = map from h] at hbit
    exact Bool.eq_false_iff.mpr fun htrue => absurd (hbit.mp htrue).1 (by decide)
  · intro h
    refine BitVec.eq_of_getLsbD_eq fun j hj =>
      Bool.eq_iff_iff.mpr ((getLsbD_parameters map hj).trans ?_)
    refine ⟨fun hbit => hbit.2, fun hbit => ⟨?_, hbit⟩⟩
    by_contra hge
    rw [show j = 15 by omega, h] at hbit
    exact Bool.false_ne_true hbit

theorem zero_notMem_decodedSchedulers (map : BitVec 16) : 0 ∉ decodedSchedulers map := by
  intro h
  obtain ⟨i, hi, -, heq⟩ := (mem_decodedSchedulers map 0).mp h
  omega

/-- The numbers of entries. -/
def SchedulersFit (schedulers : List ℕ) : Prop := ∀ s ∈ schedulers, s < 16

/-- The entries from the last on, without entry 0. -/
def SchedulersKept (schedulers : List ℕ) : Prop :=
  schedulers.Pairwise (· > ·) ∧ 0 ∉ schedulers

theorem decodedSchedulers_map {a : List ℕ} (ha : SchedulersFit a) :
    decodedSchedulers (schedulerMap a) = a ↔ SchedulersKept a := by
  constructor
  · intro h
    rw [← h]
    exact ⟨decodedSchedulers_descending _, zero_notMem_decodedSchedulers _⟩
  · intro h
    have hmem : ∀ k, k ∈ decodedSchedulers (schedulerMap a) ↔ k ∈ a := by
      intro k
      rw [mem_decodedSchedulers]
      constructor
      · intro hk
        obtain ⟨i, hi, hbit, rfl⟩ := hk
        obtain ⟨s, hs, heq⟩ := (getLsbD_schedulerMap a (by omega)).mp hbit
        have hs16 := ha s hs
        rwa [show 15 - i = s by omega]
      · intro hk
        have hk16 := ha k hk
        have hne : k ≠ 0 := fun hzero => h.2 (hzero ▸ hk)
        exact ⟨15 - k, by omega, (getLsbD_schedulerMap a (by omega)).mpr ⟨k, hk, rfl⟩, by omega⟩
    have hnodup : a.Nodup := h.1.imp fun hgt => Nat.ne_of_gt hgt
    have hperm := (List.perm_ext_iff_of_nodup (nodup_decodedSchedulers _) hnodup).mpr hmem
    exact hperm.eq_of_pairwise (fun _ _ _ _ h₁ h₂ => absurd h₁ (Nat.lt_asymm h₂))
      (decodedSchedulers_descending _) h.1

theorem schedulerStatus_settles :
    Settles sigSchedulerStatus .schedulerStatus Valid
      (fun _ p => (u16.get (octets p)).getLsbD 15 = false)
      SchedulersFit SchedulersKept where
  octets_iff := by
    intro behind p schedulers _ h
    obtain ⟨data, rfl, hget⟩ := Option.bind_eq_some_iff.mp h
    have hlen : data.length = 2 := by
      unfold SigSchedulerStatus.initWithParameters at hget
      split_ifs at hget with hlen
      exact not_not.mp hlen
    rw [← put_get_u16 hlen, initWithParameters_put] at hget
    rw [← Option.some.inj hget]
    refine (and_iff_right rfl).trans ?_
    show u16.put (schedulerMap (decodedSchedulers (u16.get data))) = data ↔ _
    rw [← schedulerMap_decoded]
    constructor
    · intro hput
      exact (u16_fits _).symm.trans (congrArg u16.get hput)
    · intro hmap
      exact (congrArg u16.put hmap).trans (put_get_u16 hlen)
  fields_iff := by
    intro _ behind (a : List ℕ) ha
    refine Iff.trans ?_ (decodedSchedulers_map ha)
    show SigSchedulerStatus.initWithParameters (u16.put (schedulerMap a)) = some a ↔ _
    rw [initWithParameters_put, Option.some_inj]

end PirMesh.GenericMessage
