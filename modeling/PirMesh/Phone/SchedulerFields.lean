import PirMesh.Library.BitFields
import PirMesh.Library.Writes
import PirMesh.Phone.MeshDictionary

/-! # Phone — The fields of a schedule (`SigModel.m`)

A schedule is one word of ten fields, which cover it (`existsUnique_field`).  Each setter clears its
bits and sets them, but for that of the transition time: its mask is `~tem<<56` and not
`~(tem<<56)`, which is zero, so that the other fields are cleared too (`get_call`).  The setters are
independent in those runs only in which that loses nothing (`fields_independent_iff`). -/

namespace PirMesh

/-- The properties of a `SchedulerModel` in its `schedulerData`, the lowest first. -/
inductive SchedulerField
  | schedulerID
  | year
  | month
  | day
  | hour
  | minute
  | second
  | week
  | action
  | transitionTime
  deriving DecidableEq, Repr

namespace SchedulerField

/-- What a getter shifts by. -/
def off : SchedulerField → ℕ
  | schedulerID => 0
  | year => 4
  | month => 11
  | day => 23
  | hour => 28
  | minute => 33
  | second => 39
  | week => 45
  | action => 52
  | transitionTime => 56

/-- The ones of `tem`. -/
def len : SchedulerField → ℕ
  | schedulerID => 4
  | year => 7
  | month => 12
  | day => 5
  | hour => 5
  | minute => 6
  | second => 6
  | week => 7
  | action => 4
  | transitionTime => 8

/-- A value as far as the field goes. -/
def truncate (field : SchedulerField) (value : BitVec 64) : BitVec 64 :=
  (value.setWidth field.len).setWidth 64

/-- The field of a bit. -/
def ofBit (i : ℕ) : SchedulerField :=
  if i < 4 then schedulerID
  else if i < 11 then year
  else if i < 23 then month
  else if i < 28 then day
  else if i < 33 then hour
  else if i < 39 then minute
  else if i < 45 then second
  else if i < 52 then week
  else if i < 56 then action
  else transitionTime

theorem disjoint {f g : SchedulerField} (h : f ≠ g) :
    f.off + f.len ≤ g.off ∨ g.off + g.len ≤ f.off := by
  cases f <;> cases g <;> first | exact absurd rfl h | decide

theorem within (f : SchedulerField) : f.off + f.len ≤ 64 := by
  cases f <;> decide

theorem ofBit_spec {i : ℕ} (h : i < 64) :
    (ofBit i).off ≤ i ∧ i < (ofBit i).off + (ofBit i).len := by
  fun_cases ofBit i <;> dsimp only [off, len] <;> omega

/-- The fields cover the word, and no two of them meet. -/
theorem existsUnique_field {i : ℕ} (h : i < 64) :
    ∃! f : SchedulerField, f.off ≤ i ∧ i < f.off + f.len := by
  refine ⟨ofBit i, ofBit_spec h, fun f hf => ?_⟩
  have hbit := ofBit_spec h
  by_contra hne
  have hdisjoint := disjoint hne
  omega

end SchedulerField

namespace SchedulerModel

open MeshDictionary (setSchedulerID schedulerInit)

/-! ### The setters -/

/-- `data & ~(tem<<off) | (value & tem)<<off` -/
def setBits (model : SchedulerModel) (tem : BitVec 64) (off : ℕ) (value : BitVec 64) :
    SchedulerModel :=
  { model with
    schedulerData := model.schedulerData &&& ~~~(tem <<< off) ||| (value &&& tem) <<< off }

variable (model : SchedulerModel)

def setYear (year : BitVec 64) : SchedulerModel := model.setBits 0x7F 4 year

def setMonth (month : BitVec 64) : SchedulerModel := model.setBits 0xFFF 11 month

def setDay (day : BitVec 64) : SchedulerModel := model.setBits 0x1F 23 day

def setHour (hour : BitVec 64) : SchedulerModel := model.setBits 0x1F 28 hour

def setMinute (minute : BitVec 64) : SchedulerModel := model.setBits 0x3F 33 minute

def setSecond (second : BitVec 64) : SchedulerModel := model.setBits 0x3F 39 second

def setWeek (week : BitVec 64) : SchedulerModel := model.setBits 0x7F 45 week

/-- A `SchedulerType` is an octet. -/
def setAction (action : BitVec 8) : SchedulerModel := model.setBits 0xF 52 (action.setWidth 64)

/-- The complement is taken before the shift. -/
def setTransitionTime (transitionTime : BitVec 64) : SchedulerModel :=
  { model with
    schedulerData := model.schedulerData &&& (~~~(0xFF : BitVec 64)) <<< 56 |||
      (transitionTime &&& 0xFF) <<< 56 }

/-- A setter by its property. -/
def call : SchedulerField × BitVec 64 → SchedulerModel
  | (.schedulerID, value) => setSchedulerID model value
  | (.year, value) => model.setYear value
  | (.month, value) => model.setMonth value
  | (.day, value) => model.setDay value
  | (.hour, value) => model.setHour value
  | (.minute, value) => model.setMinute value
  | (.second, value) => model.setSecond value
  | (.week, value) => model.setWeek value
  | (.action, value) => model.setAction (value.setWidth 8)
  | (.transitionTime, value) => model.setTransitionTime value

def callAll (calls : List (SchedulerField × BitVec 64)) : SchedulerModel := calls.foldl call model

/-- A getter by its property. -/
def get : SchedulerField → BitVec 64
  | .schedulerID => model.schedulerID
  | .year => model.year
  | .month => model.month
  | .day => model.day
  | .hour => model.hour
  | .minute => model.minute
  | .second => model.second
  | .week => model.week
  | .action => model.action
  | .transitionTime => model.transitionTime

/-- `init` calls the setters but for the last two. -/
example : callAll ⟨0, 0⟩ [(.schedulerID, 0), (.year, 0x64), (.month, 0xFFF), (.day, 0),
    (.hour, 0x18), (.minute, 0x3C), (.second, 0x3C), (.week, 0x7F)] = schedulerInit := by decide

/-! ### One call -/

theorem get_eq (field : SchedulerField) :
    model.get field = BitFields.get model.schedulerData field.off field.len := by
  cases field with
  | schedulerID => exact (congrArg (· &&& (0xF : BitVec 64)) (BitVec.ushiftRight_zero _)).symm
  | _ => rfl

/-- Four bits of an octet are four bits. -/
theorem action_eq (value : BitVec 64) :
    (value.setWidth 8).setWidth 64 &&& BitFields.mask 64 4 = value &&& BitFields.mask 64 4 := by
  refine BitVec.eq_of_getLsbD_eq fun i _ => ?_
  simp only [BitVec.getLsbD_and, BitFields.getLsbD_mask, BitVec.getLsbD_setWidth]
  by_cases hlen : i < 4
  · simp [show i < 64 by omega, show i < 8 by omega]
  · simp [hlen]

/-- The mask of the transition time keeps nothing. -/
theorem transitionTime_mask : (~~~(0xFF : BitVec 64)) <<< 56 = 0 := by decide

/-- A setter writes its field, and that of the transition time the whole word. -/
theorem call_schedulerData (field : SchedulerField) (value : BitVec 64) :
    (model.call (field, value)).schedulerData = BitFields.set
      (if field = .transitionTime then 0 else model.schedulerData) field.off field.len value := by
  cases field with
  | schedulerID =>
    show _ = model.schedulerData &&& ~~~(BitFields.mask 64 4 <<< 0) |||
      (value &&& BitFields.mask 64 4) <<< 0
    rw [BitVec.shiftLeft_zero, BitVec.shiftLeft_zero]
    rfl
  | action =>
    exact congrArg (fun v : BitVec 64 =>
      model.schedulerData &&& ~~~(BitFields.mask 64 4 <<< 52) ||| v <<< 52) (action_eq value)
  | transitionTime =>
    have hmask : model.schedulerData &&& (~~~(0xFF : BitVec 64)) <<< 56 = 0#64 := by
      rw [transitionTime_mask]
      exact BitVec.and_zero
    have hzero : 0#64 &&& ~~~(BitFields.mask 64 8 <<< 56) = 0#64 := BitVec.zero_and
    exact congrArg (· ||| (value &&& (0xFF : BitVec 64)) <<< 56) (hmask.trans hzero.symm)
  | _ => rfl

/-- What the getters return after a call. -/
theorem get_call (c : SchedulerField × BitVec 64) :
    (model.call c).get =
      Function.update (if c.1 = .transitionTime then fun _ => 0 else model.get) c.1
        (c.1.truncate c.2) := by
  obtain ⟨field, value⟩ := c
  funext f
  rw [get_eq, call_schedulerData]
  by_cases hf : f = field
  · subst hf
    rw [Function.update_self]
    exact BitFields.get_set_self _ _ f.within
  · rw [Function.update_of_ne hf, BitFields.get_set_of_disjoint _ _ (SchedulerField.disjoint
      (Ne.symm hf)), ite_apply, get_eq]
    split_ifs
    · exact BitFields.get_zero ..
    · rfl

theorem get_callAll (calls : List (SchedulerField × BitVec 64)) :
    (model.callAll calls).get = Writes.wipeAll Prod.fst (fun c => c.1.truncate c.2)
      (fun c => c.1 = .transitionTime) 0 model.get calls := by
  induction calls generalizing model with
  | nil => rfl
  | cons c calls ih =>
    refine (ih (model.call c)).trans ?_
    rw [get_call]
    rfl

/-- What the getters should return: for each the last value of its own setter, or what it returned
before. -/
def lastSet (calls : List (SchedulerField × BitVec 64)) : SchedulerField → BitVec 64 :=
  Writes.writeAll Prod.fst (fun c => c.1.truncate c.2) model.get calls

/-- The scene is no field of the word. -/
theorem callAll_sceneId (calls : List (SchedulerField × BitVec 64)) :
    (model.callAll calls).sceneId = model.sceneId := by
  induction calls generalizing model with
  | nil => rfl
  | cons c calls ih =>
    obtain ⟨field, value⟩ := c
    refine (ih _).trans ?_
    cases field <;> rfl

/-- **The setters are independent.** -/
structure Independent (calls : List (SchedulerField × BitVec 64)) : Prop where
  reads : ∀ field, (model.callAll calls).get field =
    BitFields.get (model.callAll calls).schedulerData field.off field.len
  covers : ∀ i < 64, ∃! field : SchedulerField, field.off ≤ i ∧ i < field.off + field.len
  last : ∀ field, (model.callAll calls).get field = model.lastSet calls field

/-- The setters are independent exactly if a transition time is set only where no other field loses
a value by it. -/
theorem fields_independent_iff (calls : List (SchedulerField × BitVec 64)) :
    model.Independent calls ↔
      ∀ before value after, calls = before ++ (.transitionTime, value) :: after →
        ∀ field, field ≠ .transitionTime → (∀ c ∈ after, c.1 ≠ field) →
          model.lastSet before field = 0 := by
  have hget (field : SchedulerField) := congrFun (model.get_callAll calls) field
  constructor
  · intro h before value after hcalls field hne hafter
    have hlast := (hget field).symm.trans (h.last field)
    exact Writes.wipeAll_eq_iff.mp hlast before (.transitionTime, value) after hcalls rfl
      hne.symm hafter
  · intro h
    refine ⟨get_eq _, fun _ hi => SchedulerField.existsUnique_field hi, fun field => ?_⟩
    refine (hget field).trans (Writes.wipeAll_eq_iff.mpr ?_)
    rintro before ⟨set, value⟩ after hcalls hset hne hafter
    obtain rfl : set = .transitionTime := hset
    exact h before value after hcalls field hne.symm hafter

/-- A fresh schedule loses its year. -/
theorem fields_independent_refuted :
    ¬ ∀ (model : SchedulerModel) (calls : List (SchedulerField × BitVec 64)),
      model.Independent calls := by
  intro h
  have hyear := (h schedulerInit [(.transitionTime, 0)]).last .year
  exact absurd hyear (by decide)

end SchedulerModel

end PirMesh
