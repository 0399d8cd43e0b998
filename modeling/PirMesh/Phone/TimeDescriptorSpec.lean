import PirMesh.Phone.SensorDescriptor
import PirMesh.Phone.TimeMessage

/-! # Phone — Times and descriptors there and back (`SigModel.m`)

A time is written with four of the five octets of its seconds, and with the sub-seconds in the
place of the difference to UTC.  A descriptor with a positive tolerance is written as nine octets,
which are not read; one without is written as its property alone. -/

namespace PirMesh.GenericMessage

namespace SigTimeModel

/-- Read again from what it is written as. -/
def RoundTrips (t : SigTimeModel) : Prop := initWithParameters t.getTimeParameters = t

theorem roundTrips_iff {t : SigTimeModel} (h : t.InWidths) :
    t.RoundTrips ↔ t.TAISeconds.toNat < 2 ^ 32 ∧ t.taiUTCDelta = t.subSeconds.setWidth 16 := by
  unfold RoundTrips
  rw [initWithParameters_getTimeParameters h]
  constructor
  · intro hsame
    have hseconds := congrArg TAISeconds hsame
    have hdelta := congrArg taiUTCDelta hsame
    exact ⟨(and_low_eq_iff _).mp hseconds, hdelta.symm⟩
  · rintro ⟨hseconds, hdelta⟩
    rw [(and_low_eq_iff _).mpr hseconds, ← hdelta]

end SigTimeModel

namespace SigSensorDescriptorModel

/-- The tolerances have 12 bits; the other fields are whole octets. -/
structure InWidths (d : SigSensorDescriptorModel) : Prop where
  positive : d.positiveTolerance.toNat < 2 ^ 12
  negative : d.negativeTolerance.toNat < 2 ^ 12

/-- Read again from what it is written as. -/
def RoundTrips (d : SigSensorDescriptorModel) : Prop :=
  initWithDescriptorParameters d.getDescriptorParameters = some d

/-- Nothing but the property. -/
def idOnly (propertyID : BitVec 16) : SigSensorDescriptorModel := ⟨propertyID, 0, 0, 0, 0, 0⟩

theorem length_getDescriptorParameters (d : SigSensorDescriptorModel) :
    d.getDescriptorParameters.length = if d.positiveTolerance = 0 then 2 else 9 := by
  unfold getDescriptorParameters
  by_cases h : d.positiveTolerance = 0
  · rw [if_pos h, if_neg (not_not_intro h), List.append_nil, length_u16]
  · rw [if_neg h, if_pos h, List.length_append, List.length_append, List.length_append,
      length_u16, length_u16, length_u16]
    rfl

theorem initWithDescriptorParameters_getDescriptorParameters (d : SigSensorDescriptorModel) :
    initWithDescriptorParameters d.getDescriptorParameters =
      if d.positiveTolerance = 0 then some (idOnly d.propertyID) else none := by
  have hlength := length_getDescriptorParameters d
  by_cases h : d.positiveTolerance = 0
  · have hput : d.getDescriptorParameters = u16.put d.propertyID := by
      unfold getDescriptorParameters
      rw [if_neg (not_not_intro h), List.append_nil]
    have hget : u16.get ((u16.put d.propertyID).take 2) = d.propertyID := u16_fits _
    rw [if_pos h] at hlength ⊢
    rw [hput] at hlength ⊢
    unfold initWithDescriptorParameters
    rw [if_neg fun hne => hne.1 hlength, hget]
    exact if_neg (by rw [hlength]; exact lt_irrefl 2)
  · -- nine octets are neither two nor eight
    rw [if_neg h] at hlength ⊢
    unfold initWithDescriptorParameters
    rw [if_pos]
    rw [hlength]
    decide

theorem roundTrips_iff (d : SigSensorDescriptorModel) :
    d.RoundTrips ↔ d = idOnly d.propertyID := by
  unfold RoundTrips
  rw [initWithDescriptorParameters_getDescriptorParameters]
  constructor
  · intro h
    obtain ⟨-, hsame⟩ := Option.ite_none_right_eq_some.mp h
    exact (Option.some.inj hsame).symm
  · intro h
    have hzero : d.positiveTolerance = 0 := congrArg positiveTolerance h
    rw [if_pos hzero, ← h]

end SigSensorDescriptorModel

/-- **Times and descriptors**: a time comes back exactly if its seconds have 32 bits and its
difference to UTC is its sub-seconds, and a descriptor exactly if it is nothing but a property. -/
theorem timeDescriptor_roundTrip {t : SigTimeModel} (ht : t.InWidths)
    (d : SigSensorDescriptorModel) :
    (t.RoundTrips ↔
      t.TAISeconds.toNat < 2 ^ 32 ∧ t.taiUTCDelta = t.subSeconds.setWidth 16) ∧
    (d.RoundTrips ↔
      d.positiveTolerance = 0 ∧ d.negativeTolerance = 0 ∧ d.samplingFunction = 0 ∧
        d.measurementPeriod = 0 ∧ d.updateInterval = 0) := by
  refine ⟨SigTimeModel.roundTrips_iff ht, (SigSensorDescriptorModel.roundTrips_iff d).trans ?_⟩
  obtain ⟨propertyID, positive, negative, sampling, period, interval⟩ := d
  constructor
  · intro h
    obtain ⟨-, hfields⟩ := (SigSensorDescriptorModel.mk.injEq ..).mp h
    exact hfields
  · rintro ⟨rfl, rfl, rfl, rfl, rfl⟩
    rfl

theorem timeDescriptor_roundTrip_sample :
    ((⟨7, 5, 6, 1, 5, 8⟩ : SigTimeModel).RoundTrips ↔
      (7 : BitVec 64).toNat < 2 ^ 32 ∧ (5 : BitVec 16) = (5 : Nor.Byte).setWidth 16) ∧
    ((⟨0x4E, 1, 1, 0, 0, 0⟩ : SigSensorDescriptorModel).RoundTrips ↔
      (1 : BitVec 16) = 0 ∧ (1 : BitVec 16) = 0 ∧ (0 : Nor.Byte) = 0 ∧ (0 : Nor.Byte) = 0 ∧
        (0 : Nor.Byte) = 0) :=
  @timeDescriptor_roundTrip ⟨7, 5, 6, 1, 5, 8⟩ ⟨by decide, by decide, by decide⟩
    ⟨0x4E, 1, 1, 0, 0, 0⟩

/-- A time whose difference to UTC is 37 s, and a descriptor with tolerances. -/
theorem timeDescriptor_roundTrip_refuted :
    (¬ ∀ t : SigTimeModel, t.InWidths → t.RoundTrips) ∧
      ¬ ∀ d : SigSensorDescriptorModel, d.InWidths → d.RoundTrips := by
  constructor
  · intro h
    have hback := h ⟨0, 0, 0, 0, 37, 0⟩ ⟨by decide, by decide, by decide⟩
    exact absurd ((SigTimeModel.roundTrips_iff ⟨by decide, by decide, by decide⟩).mp hback).2
      (by decide)
  · intro h
    have hback := h ⟨0x4E, 0x347, 0x256, 2, 0x40, 0x4B⟩ ⟨by decide, by decide⟩
    exact absurd ((SigSensorDescriptorModel.roundTrips_iff _).mp hback) (by decide)

end PirMesh.GenericMessage
