import PirMesh.Library.BitFields
import PirMesh.Library.Format
import PirMesh.Time.Clock

/-! # Phone — The schedule register on the air (`SigGenericMessage.m`, `scheduler.c`)

An entry is eight octets of bit fields and a scene number.  The phone reads the fields with shifts
and masks, the node as `scheduler_t`; the lowest field is the index in a message and a flag in the
register.  The map of the valid entries has bit `i` for entry `i` at the node; the phone reads it
from the other end, and leaves out its last bit.

An action set and its status carry every field of an entry.  The map of the valid entries agrees
for a mirrored register without entry 0 only. -/

namespace PirMesh

open Nor (Byte toLE ofLE)

/-! ### The node (`scheduler.c`) -/

/-- `scheduler_t`, with the fields that nothing of the search reads. -/
structure SchdEntry extends Scheduler where
  transT : BitVec 8
  sceneId : BitVec 16
  deriving DecidableEq, Repr

namespace SchdEntry

/-- The bit fields in the order of their declaration, the first lowest. -/
def word (entry : SchdEntry) : BitVec 64 :=
  entry.transT ++ entry.action ++ entry.week ++ entry.second ++ entry.minute ++ entry.hour ++
    entry.day ++ entry.month ++ entry.year ++ entry.validFlagOrIdx

/-- The `SIZE_SCHEDULER` bytes of an entry. -/
def bytes (entry : SchdEntry) : List Byte := toLE 8 entry.word.toNat ++ toLE 2 entry.sceneId.toNat

/-- A cast of a parameter to `scheduler_t *`; nothing random yet. -/
def ofBytes (par : List Byte) : SchdEntry :=
  let word : BitVec 64 := BitVec.ofNat 64 (ofLE (par.take 8))
  { validFlagOrIdx := word.extractLsb' 0 4
    year := word.extractLsb' 4 7
    month := word.extractLsb' 11 12
    day := word.extractLsb' 23 5
    hour := word.extractLsb' 28 5
    minute := word.extractLsb' 33 6
    second := word.extractLsb' 39 6
    week := word.extractLsb' 45 7
    action := word.extractLsb' 52 4
    transT := word.extractLsb' 56 8
    sceneId := BitVec.ofNat 16 (ofLE ((par.drop 8).take 2))
    randHour := 0
    randMin := 0
    randSec := 0 }

end SchdEntry

/-- `g_schd_list`. -/
abbrev GSchdList (lightCnt : Nat) := SchdIdx lightCnt → SchdEntry

variable {lightCnt : Nat}

/-- The two octets are the map, lowest first. -/
def getSchdEntry (list : GSchdList lightCnt) (eleIdx : Fin lightCnt) : BitVec 16 :=
  (List.finRange 16).foldl (fun entry i =>
    if (list (eleIdx, i)).validFlagOrIdx ≠ 0 then entry ||| 1#16 <<< i.val else entry) 0

def meshTxCmdSchdActionSt (list : GSchdList lightCnt) (eleIdx : Fin lightCnt) (schdIdx : Byte) :
    Option (List Byte) :=
  if h : schdIdx.toNat < 16 then
    some { list (eleIdx, ⟨schdIdx.toNat, h⟩) with validFlagOrIdx := schdIdx.setWidth 4 }.bytes
  else none

/-- `mesh_cmd_sig_schd_action_set`, on the register. -/
def schdActionSet (par : List Byte) (eleIdx : Fin lightCnt) (r : Rand) (list : GSchdList lightCnt) :
    GSchdList lightCnt :=
  let pSet := SchdEntry.ofBytes par
  if isValidSchdPar pSet.toScheduler then
    Function.update list (eleIdx, pSet.toScheduler.idx)
      ⟨schdSaved pSet.toScheduler r, pSet.transT, pSet.sceneId⟩
  else list

/-- The clock's part of an entry is set the same way. -/
theorem schdActionSet_toScheduler (par : List Byte) (eleIdx : Fin lightCnt) (r : Rand)
    (list : GSchdList lightCnt) (c : Clock lightCnt)
    (hc : ∀ e, c.schdList e = (list e).toScheduler) (e : SchdIdx lightCnt) :
    (meshCmdSigSchdActionSet eleIdx (SchdEntry.ofBytes par).toScheduler r c).1.schdList e =
      (schdActionSet par eleIdx r list e).toScheduler := by
  have hkept : ∀ (c : Clock lightCnt) (taiLocal : Nat),
      (rebulidSchdNearestAndCheckEvent true taiLocal c).1.schdList = c.schdList := by
    intro c taiLocal
    unfold rebulidSchdNearestAndCheckEvent schdEventCheck Clock.research
    split_ifs <;> rfl
  unfold meshCmdSigSchdActionSet schdActionSet
  dsimp only
  by_cases hvalid : isValidSchdPar (SchdEntry.ofBytes par).toScheduler = true
  · rw [if_pos hvalid, if_pos hvalid, hkept]
    dsimp only
    by_cases he : e = (eleIdx, (SchdEntry.ofBytes par).toScheduler.idx)
    · rw [if_pos he, he, Function.update_self]
    · rw [if_neg he, Function.update_of_ne he]
      exact hc e
  · rw [if_neg hvalid, if_neg hvalid]
    exact hc e

/-! ### The phone (`SigModel.m`, `SigGenericMessage.m`) -/

structure SchedulerModel where
  schedulerData : BitVec 64
  sceneId : BitVec 64
  deriving DecidableEq, Repr

namespace SchedulerModel

variable (model : SchedulerModel)

def schedulerID : BitVec 64 := model.schedulerData &&& 0xF

def year : BitVec 64 := model.schedulerData >>> 4 &&& 0x7F

def month : BitVec 64 := model.schedulerData >>> 11 &&& 0xFFF

def day : BitVec 64 := model.schedulerData >>> 23 &&& 0x1F

def hour : BitVec 64 := model.schedulerData >>> 28 &&& 0x1F

def minute : BitVec 64 := model.schedulerData >>> 33 &&& 0x3F

def second : BitVec 64 := model.schedulerData >>> 39 &&& 0x3F

def week : BitVec 64 := model.schedulerData >>> 45 &&& 0x7F

def action : BitVec 64 := model.schedulerData >>> 52 &&& 0xF

def transitionTime : BitVec 64 := model.schedulerData >>> 56 &&& 0xFF

end SchedulerModel

namespace SigSchedulerActionSet

/-- `memcpy` of the eight octets of the data and two of the scene. -/
def parameters (model : SchedulerModel) : List Byte :=
  toLE 8 model.schedulerData.toNat ++ toLE 2 (model.sceneId.setWidth 16).toNat

end SigSchedulerActionSet

namespace SigSchedulerActionStatus

def initWithParameters (parameters : List Byte) : Option SchedulerModel :=
  if parameters.length ≠ 10 then none
  else some
    { schedulerData := BitVec.ofNat 64 (ofLE (parameters.take 8))
      sceneId := BitVec.ofNat 64 (ofLE (parameters.drop 8)) }

end SigSchedulerActionStatus

namespace SigSchedulerStatus

def initWithParameters (parameters : List Byte) : Option (List Nat) :=
  if parameters.length ≠ 2 then none
  else
    let tem16 := BitVec.ofNat 16 (ofLE parameters)
    some ((List.range 0xF).filterMap fun i =>
      if tem16 >>> i &&& 1#16 = 1#16 then some (0xF - i) else none)

/-- An ID above `0xF` is none. -/
def parameters (schedulers : List Nat) : List Byte :=
  toLE 2 (schedulers.foldl (fun tem16 schedulerID => tem16 ||| 1#16 <<< (0xF - schedulerID))
    0#16).toNat

end SigSchedulerStatus

/-! ### Which entries agree -/

variable {lightCnt : Nat}

/-! ### One entry -/

namespace SchdEntry

/-- The fields of a word make up the word. -/
theorem word_ofBytes (par : List Byte) :
    (ofBytes par).word = BitVec.ofNat 64 (ofLE (par.take 8)) := by
  unfold word ofBytes
  dsimp only
  generalize BitVec.ofNat 64 (ofLE (par.take 8)) = w
  rw [BitFields.extract_append w 52 4 8, BitFields.extract_append w 45 7 12,
    BitFields.extract_append w 39 6 19, BitFields.extract_append w 33 6 25,
    BitFields.extract_append w 28 5 31, BitFields.extract_append w 23 5 36,
    BitFields.extract_append w 11 12 41, BitFields.extract_append w 4 7 53,
    BitFields.extract_append w 0 4 60]
  exact BitVec.extractLsb'_eq_self

end SchdEntry

theorem ofLE_word (w : BitVec 64) : BitVec.ofNat 64 (ofLE (toLE 8 w.toNat)) = w := by
  rw [Nor.ofLE_toLE, Nat.mod_eq_of_lt (show w.toNat < 256 ^ 8 from w.isLt), BitVec.ofNat_toNat,
    BitVec.setWidth_eq]

theorem ofLE_half (w : BitVec 16) : ofLE (toLE 2 w.toNat) = w.toNat := by
  rw [Nor.ofLE_toLE]
  exact Nat.mod_eq_of_lt w.isLt

theorem take_parameters (model : SchedulerModel) :
    (SigSchedulerActionSet.parameters model).take 8 = toLE 8 model.schedulerData.toNat :=
  List.take_left' (Nor.length_toLE ..)

theorem drop_parameters (model : SchedulerModel) :
    (SigSchedulerActionSet.parameters model).drop 8 = toLE 2 (model.sceneId.setWidth 16).toNat :=
  List.drop_left' (Nor.length_toLE ..)

/-- What the node finds in the parameters. -/
theorem ofBytes_parameters (model : SchedulerModel) :
    SchdEntry.ofBytes (SigSchedulerActionSet.parameters model) =
      { validFlagOrIdx := model.schedulerData.extractLsb' 0 4
        year := model.schedulerData.extractLsb' 4 7
        month := model.schedulerData.extractLsb' 11 12
        day := model.schedulerData.extractLsb' 23 5
        hour := model.schedulerData.extractLsb' 28 5
        minute := model.schedulerData.extractLsb' 33 6
        second := model.schedulerData.extractLsb' 39 6
        week := model.schedulerData.extractLsb' 45 7
        action := model.schedulerData.extractLsb' 52 4
        transT := model.schedulerData.extractLsb' 56 8
        sceneId := model.sceneId.setWidth 16
        randHour := 0
        randMin := 0
        randSec := 0 } := by
  unfold SchdEntry.ofBytes
  rw [take_parameters, drop_parameters, ofLE_word,
    List.take_of_length_le (Nat.le_of_eq (Nor.length_toLE ..)), ofLE_half,
    BitVec.ofNat_toNat, BitVec.setWidth_eq]

/-- **An entry is that of a model.** -/
structure EntryOf (model : SchedulerModel) (entry : SchdEntry) : Prop where
  valid : entry.validFlagOrIdx ≠ 0
  year : entry.year.setWidth 64 = model.year
  month : entry.month.setWidth 64 = model.month
  day : entry.day.setWidth 64 = model.day
  hour : entry.hour.setWidth 64 = model.hour
  minute : entry.minute.setWidth 64 = model.minute
  second : entry.second.setWidth 64 = model.second
  week : entry.week.setWidth 64 = model.week
  action : entry.action.setWidth 64 = model.action
  transition : entry.transT.setWidth 64 = model.transitionTime
  scene : entry.sceneId.setWidth 64 = model.sceneId

/-- The set writes the entry of the model, whose status is read back as the model. -/
structure ActionAgrees (model : SchedulerModel) (eleIdx : Fin lightCnt) (r : Rand)
    (list : GSchdList lightCnt) : Prop where
  entry : ∀ i : Fin 16, i.val = model.schedulerID.toNat → EntryOf model
    (schdActionSet (SigSchedulerActionSet.parameters model) eleIdx r list (eleIdx, i))
  status : (meshTxCmdSchdActionSt
    (schdActionSet (SigSchedulerActionSet.parameters model) eleIdx r list) eleIdx
      (model.schedulerID.setWidth 8)).bind SigSchedulerActionStatus.initWithParameters = some model

/-- What the node accepts. -/
def SchedulerModel.Acceptable (model : SchedulerModel) : Prop :=
  model.year.toNat ≤ 0x64 ∧ model.hour.toNat ≤ 0x19

instance (model : SchedulerModel) : Decidable model.Acceptable :=
  inferInstanceAs (Decidable (_ ∧ _))

/-- Each accessor reads its field. -/
theorem schedulerID_eq (model : SchedulerModel) :
    model.schedulerID = (model.schedulerData.extractLsb' 0 4).setWidth 64 := by
  rw [← BitFields.get_eq_extract, BitFields.get, BitVec.ushiftRight_zero]
  rfl

theorem fields_eq (model : SchedulerModel) :
    (model.schedulerData.extractLsb' 4 7).setWidth 64 = model.year ∧
    (model.schedulerData.extractLsb' 11 12).setWidth 64 = model.month ∧
    (model.schedulerData.extractLsb' 23 5).setWidth 64 = model.day ∧
    (model.schedulerData.extractLsb' 28 5).setWidth 64 = model.hour ∧
    (model.schedulerData.extractLsb' 33 6).setWidth 64 = model.minute ∧
    (model.schedulerData.extractLsb' 39 6).setWidth 64 = model.second ∧
    (model.schedulerData.extractLsb' 45 7).setWidth 64 = model.week ∧
    (model.schedulerData.extractLsb' 52 4).setWidth 64 = model.action ∧
    (model.schedulerData.extractLsb' 56 8).setWidth 64 = model.transitionTime := by
  simp only [← BitFields.get_eq_extract]
  exact ⟨rfl, rfl, rfl, rfl, rfl, rfl, rfl, rfl, rfl⟩

/-- The entry behind an acceptable set. -/
theorem schdActionSet_parameters {model : SchedulerModel} (h : model.Acceptable)
    (eleIdx : Fin lightCnt) (r : Rand) (list : GSchdList lightCnt) {i : Fin 16}
    (hi : i.val = model.schedulerID.toNat) :
    schdActionSet (SigSchedulerActionSet.parameters model) eleIdx r list (eleIdx, i) =
      ⟨schdSaved (SchdEntry.ofBytes (SigSchedulerActionSet.parameters model)).toScheduler r,
        model.schedulerData.extractLsb' 56 8, model.sceneId.setWidth 16⟩ := by
  obtain ⟨hyear, -, -, hhour, -⟩ := fields_eq model
  have hvalid : isValidSchdPar
      (SchdEntry.ofBytes (SigSchedulerActionSet.parameters model)).toScheduler = true := by
    obtain ⟨hy, hh⟩ := h
    rw [← hyear, BitVec.toNat_setWidth_of_le (by decide)] at hy
    rw [← hhour, BitVec.toNat_setWidth_of_le (by decide)] at hh
    rw [ofBytes_parameters]
    simpa [isValidSchdPar] using ⟨hy, hh⟩
  have hidx : (SchdEntry.ofBytes (SigSchedulerActionSet.parameters model)).toScheduler.idx = i := by
    rw [schedulerID_eq, BitVec.toNat_setWidth_of_le (by decide)] at hi
    rw [ofBytes_parameters]
    exact Fin.ext hi.symm
  unfold schdActionSet
  rw [if_pos hvalid, hidx, Function.update_self, ofBytes_parameters]

theorem toNat_schedulerID_lt (model : SchedulerModel) : model.schedulerID.toNat < 16 := by
  rw [schedulerID_eq, BitVec.toNat_setWidth_of_le (by decide)]
  exact (model.schedulerData.extractLsb' 0 4).isLt

/-- The status of the entry: the octets of the set, but for a long scene number. -/
theorem status_parameters {model : SchedulerModel} (h : model.Acceptable)
    (eleIdx : Fin lightCnt) (r : Rand) (list : GSchdList lightCnt) :
    meshTxCmdSchdActionSt (schdActionSet (SigSchedulerActionSet.parameters model) eleIdx r list)
      eleIdx (model.schedulerID.setWidth 8) = some (SigSchedulerActionSet.parameters model) := by
  have hlt := toNat_schedulerID_lt model
  have hindex : (model.schedulerID.setWidth 8).toNat = model.schedulerID.toNat := by
    rw [BitVec.toNat_setWidth, Nat.mod_eq_of_lt (Nat.lt_trans hlt (by decide))]
  unfold meshTxCmdSchdActionSt
  rw [dif_pos (hindex ▸ hlt), schdActionSet_parameters h eleIdx r list hindex]
  have hword := SchdEntry.word_ofBytes (SigSchedulerActionSet.parameters model)
  rw [take_parameters, ofLE_word, ofBytes_parameters] at hword
  have hflag : (model.schedulerID.setWidth 8).setWidth 4 = model.schedulerData.extractLsb' 0 4 := by
    rw [schedulerID_eq]
    simp
  rw [hflag, ofBytes_parameters]
  exact congrArg (fun w : BitVec 64 =>
    some (toLE 8 w.toNat ++ toLE 2 (model.sceneId.setWidth 16).toNat)) hword

theorem initWithParameters_parameters (model : SchedulerModel) :
    SigSchedulerActionStatus.initWithParameters (SigSchedulerActionSet.parameters model) =
      some ⟨model.schedulerData, (model.sceneId.setWidth 16).setWidth 64⟩ := by
  have hlength : (SigSchedulerActionSet.parameters model).length = 10 := by
    rw [SigSchedulerActionSet.parameters, List.length_append, Nor.length_toLE, Nor.length_toLE]
  unfold SigSchedulerActionStatus.initWithParameters
  rw [if_neg (not_not_intro hlength), take_parameters, drop_parameters, ofLE_word, ofLE_half,
    BitVec.ofNat_toNat]

/-- A scene number that two octets hold. -/
theorem sceneId_setWidth_iff (w : BitVec 64) :
    (w.setWidth 16).setWidth 64 = w ↔ w.toNat < 2 ^ 16 := by
  have hnat : ((w.setWidth 16).setWidth 64).toNat = w.toNat % 2 ^ 16 := by
    rw [BitVec.toNat_setWidth_of_le (by decide), BitVec.toNat_setWidth]
  constructor
  · intro h
    rw [← h, hnat]
    exact Nat.mod_lt _ (by decide)
  · intro h
    exact BitVec.eq_of_toNat_eq (hnat.trans (Nat.mod_eq_of_lt h))

theorem actionAgrees_iff {model : SchedulerModel} (h : model.Acceptable) (eleIdx : Fin lightCnt)
    (r : Rand) (list : GSchdList lightCnt) :
    ActionAgrees model eleIdx r list ↔ model.sceneId.toNat < 2 ^ 16 := by
  rw [← sceneId_setWidth_iff]
  constructor
  · intro hagrees
    have hentry := hagrees.entry ⟨_, toNat_schedulerID_lt model⟩ rfl
    rw [schdActionSet_parameters h eleIdx r list rfl] at hentry
    exact hentry.scene
  · intro hscene
    refine ⟨fun i hi => ?_, ?_⟩
    · rw [schdActionSet_parameters h eleIdx r list hi, ofBytes_parameters]
      obtain ⟨hyear, hmonth, hday, hhour, hminute, hsecond, hweek, haction, htransition⟩ :=
        fields_eq model
      exact ⟨(by decide : (1 : BitVec 4) ≠ 0), hyear, hmonth, hday, hhour, hminute, hsecond, hweek,
        haction, htransition, hscene⟩
    · rw [status_parameters h, Option.bind_some, initWithParameters_parameters, hscene]

/-! ### The map of the entries -/

def IsValid (list : GSchdList lightCnt) (eleIdx : Fin lightCnt) (i : Fin 16) : Prop :=
  (list (eleIdx, i)).validFlagOrIdx ≠ 0

instance (list : GSchdList lightCnt) (eleIdx : Fin lightCnt) (i : Fin 16) :
    Decidable (IsValid list eleIdx i) :=
  inferInstanceAs (Decidable (_ ≠ _))

/-- The map of the node is read as the list of its valid entries, which is written as the map. -/
def StatusAgrees (list : GSchdList lightCnt) (eleIdx : Fin lightCnt) : Prop :=
  ∃ schedulers, SigSchedulerStatus.initWithParameters (toLE 2 (getSchdEntry list eleIdx).toNat) =
      some schedulers ∧ schedulers.Nodup ∧
    (∀ k, k ∈ schedulers ↔ ∃ i : Fin 16, i.val = k ∧ IsValid list eleIdx i) ∧
    SigSchedulerStatus.parameters schedulers = toLE 2 (getSchdEntry list eleIdx).toNat

/-- Entry 0 is not valid, and the others are valid from both ends alike. -/
def Mirrored (list : GSchdList lightCnt) (eleIdx : Fin lightCnt) : Prop :=
  ∀ i : Fin 16, IsValid list eleIdx i ↔ i ≠ 0 ∧ IsValid list eleIdx i.rev

instance (list : GSchdList lightCnt) (eleIdx : Fin lightCnt) : Decidable (Mirrored list eleIdx) :=
  inferInstanceAs (Decidable (∀ i : Fin 16, IsValid list eleIdx i ↔
    i ≠ 0 ∧ IsValid list eleIdx i.rev))

/-- Bit `i` of the map is for entry `i`. -/
theorem getLsbD_getSchdEntry (list : GSchdList lightCnt) (eleIdx : Fin lightCnt) (i : Fin 16) :
    (getSchdEntry list eleIdx).getLsbD i = true ↔ IsValid list eleIdx i := by
  have hloop := BitFields.getLsbD_foldl_or (List.finRange 16)
    (fun i => decide (IsValid list eleIdx i)) Fin.val 0#16 i.isLt
  have hsame : getSchdEntry list eleIdx = (List.finRange 16).foldl (fun w a =>
      if decide (IsValid list eleIdx a) = true then w ||| 1#16 <<< a.val else w) 0#16 := by
    simp only [decide_eq_true_eq]
    rfl
  rw [hsame, hloop, BitVec.getLsbD_zero, Bool.false_or, List.any_eq_true]
  constructor
  · intro h
    obtain ⟨a, -, ha⟩ := h
    obtain ⟨hvalid, heq⟩ := (Bool.and_eq_true _ _).mp ha
    rw [← Fin.ext (of_decide_eq_true heq)]
    exact of_decide_eq_true hvalid
  · exact fun h => ⟨i, List.mem_finRange i, by simp [h]⟩

/-- The list that the phone reads. -/
def decodedSchedulers (map : BitVec 16) : List Nat :=
  (List.range 0xF).filterMap fun i => if map >>> i &&& 1#16 = 1#16 then some (0xF - i) else none

theorem initWithParameters_map (map : BitVec 16) :
    SigSchedulerStatus.initWithParameters (toLE 2 map.toNat) = some (decodedSchedulers map) := by
  unfold SigSchedulerStatus.initWithParameters decodedSchedulers
  rw [if_neg (not_not_intro (Nor.length_toLE ..)), ofLE_half, BitVec.ofNat_toNat,
    BitVec.setWidth_eq]

theorem mem_decodedSchedulers (map : BitVec 16) (k : Nat) :
    k ∈ decodedSchedulers map ↔ ∃ i < 15, map.getLsbD i = true ∧ 15 - i = k := by
  unfold decodedSchedulers
  rw [List.mem_filterMap]
  constructor
  · intro h
    obtain ⟨i, hi, hk⟩ := h
    split_ifs at hk with hbit
    exact ⟨i, List.mem_range.mp hi, (BitFields.shift_and_one map i (by decide)).mp hbit,
      Option.some.inj hk⟩
  · intro h
    obtain ⟨i, hi, hbit, hk⟩ := h
    refine ⟨i, List.mem_range.mpr hi, ?_⟩
    rw [if_pos ((BitFields.shift_and_one map i (by decide)).mpr hbit), hk]

theorem decodedSchedulers_descending (map : BitVec 16) :
    (decodedSchedulers map).Pairwise (· > ·) := by
  have hrange := List.Pairwise.and_mem.mp (List.pairwise_lt_range : (List.range 15).Pairwise _)
  refine List.pairwise_filterMap.mpr (hrange.imp fun {i i'} h k hk k' hk' => ?_)
  obtain ⟨hi, hi', hlt⟩ := h
  rw [List.mem_range] at hi hi'
  split_ifs at hk hk'
  cases hk
  cases hk'
  omega

theorem nodup_decodedSchedulers (map : BitVec 16) : (decodedSchedulers map).Nodup :=
  (decodedSchedulers_descending map).imp fun hgt => Nat.ne_of_gt hgt

/-- The map that the list is written as: that of the node without its last bit. -/
theorem getLsbD_parameters (map : BitVec 16) {j : Nat} (hj : j < 16) :
    ((decodedSchedulers map).foldl (fun tem16 schedulerID =>
      tem16 ||| 1#16 <<< (0xF - schedulerID)) 0#16).getLsbD j = true ↔
        j < 15 ∧ map.getLsbD j = true := by
  have hloop := BitFields.getLsbD_foldl_or (decodedSchedulers map) (fun _ => true)
    (fun schedulerID => 0xF - schedulerID) 0#16 hj
  simp only [if_true] at hloop
  rw [hloop, BitVec.getLsbD_zero, Bool.false_or, List.any_eq_true]
  constructor
  · intro h
    obtain ⟨k, hk, hplace⟩ := h
    obtain ⟨i, hi, hbit, hki⟩ := (mem_decodedSchedulers map k).mp hk
    have hsame : i = j := by
      have hk' : 15 - k = j := by simpa using hplace
      omega
    exact hsame ▸ ⟨hi, hbit⟩
  · intro h
    refine ⟨15 - j, (mem_decodedSchedulers map _).mpr ⟨j, h.1, h.2, rfl⟩, ?_⟩
    simp
    omega

/-- The phone lists an entry whose counterpart is valid, but for entry 0. -/
theorem mem_decodedSchedulers_getSchdEntry (list : GSchdList lightCnt) (eleIdx : Fin lightCnt)
    (i : Fin 16) :
    i.val ∈ decodedSchedulers (getSchdEntry list eleIdx) ↔ i ≠ 0 ∧ IsValid list eleIdx i.rev := by
  have hrev : i.rev.val = 15 - i.val := by
    rw [Fin.val_rev]
    omega
  rw [mem_decodedSchedulers, ← getLsbD_getSchdEntry, hrev]
  constructor
  · intro h
    obtain ⟨k, hk, hbit, hki⟩ := h
    have hsame : 15 - i.val = k := by omega
    refine ⟨fun hzero => ?_, hsame ▸ hbit⟩
    rw [hzero] at hki
    exact absurd hki (Nat.sub_ne_zero_of_lt hk)
  · intro h
    obtain ⟨hne, hbit⟩ := h
    have hpos : 0 < i.val := Nat.pos_of_ne_zero fun hzero => hne (Fin.ext hzero)
    exact ⟨15 - i.val, by omega, hbit, by omega⟩

theorem statusAgrees_iff (list : GSchdList lightCnt) (eleIdx : Fin lightCnt) :
    StatusAgrees list eleIdx ↔ Mirrored list eleIdx := by
  have hread := initWithParameters_map (getSchdEntry list eleIdx)
  constructor
  · intro h i
    obtain ⟨schedulers, hschedulers, -, hlists, -⟩ := h
    rw [hread] at hschedulers
    cases hschedulers
    rw [← mem_decodedSchedulers_getSchdEntry, hlists]
    refine ⟨fun hvalid => ⟨i, rfl, hvalid⟩, fun hvalid => ?_⟩
    obtain ⟨i', hi', hvalid'⟩ := hvalid
    exact Fin.ext hi' ▸ hvalid'
  · intro h
    refine ⟨_, hread, nodup_decodedSchedulers _, fun k => ⟨fun hk => ?_, fun hk => ?_⟩, ?_⟩
    · obtain ⟨i, hi, -, hki⟩ := (mem_decodedSchedulers _ k).mp hk
      have hlt : k < 16 := by omega
      exact ⟨⟨k, hlt⟩, rfl,
        (h ⟨k, hlt⟩).mpr ((mem_decodedSchedulers_getSchdEntry list eleIdx ⟨k, hlt⟩).mp hk)⟩
    · obtain ⟨i, rfl, hvalid⟩ := hk
      exact (mem_decodedSchedulers_getSchdEntry list eleIdx i).mpr ((h i).mp hvalid)
    · have hlast : (getSchdEntry list eleIdx).getLsbD 15 ≠ true := by
        intro hbit
        have hvalid := (getLsbD_getSchdEntry list eleIdx 15).mp hbit
        exact ((h 0).mp ((h 15).mp hvalid).2).1 rfl
      refine congrArg (fun w : BitVec 16 => toLE 2 w.toNat)
        (BitVec.eq_of_getLsbD_eq fun j hj => Bool.eq_iff_iff.mpr ?_)
      rw [getLsbD_parameters _ hj]
      refine ⟨fun hbit => hbit.2, fun hbit => ⟨?_, hbit⟩⟩
      refine Nat.lt_of_le_of_ne (Nat.le_of_lt_succ hj) fun heq => hlast ?_
      exact heq ▸ hbit

/-! ### Both messages -/

/-- **Phone and node agree** on an acceptable model and a register when the scene number has two
octets and the register is mirrored. -/
theorem scheduler_agrees_iff {model : SchedulerModel} (h : model.Acceptable)
    (eleIdx : Fin lightCnt) (r : Rand) (list : GSchdList lightCnt) :
    ActionAgrees model eleIdx r list ∧ StatusAgrees list eleIdx ↔
      model.sceneId.toNat < 2 ^ 16 ∧ Mirrored list eleIdx :=
  and_congr (actionAgrees_iff h eleIdx r list) (statusAgrees_iff list eleIdx)

/-- An entry that is never valid. -/
def blankEntry : SchdEntry := SchdEntry.ofBytes []

/-- The register with the entries of a list valid. -/
def sampleRegister (valid : List Nat) : GSchdList 1 := fun e =>
  if e.2.val ∈ valid then { blankEntry with validFlagOrIdx := 1 } else blankEntry

theorem scheduler_agrees_sample :
    ActionAgrees ⟨0xFFE47, 3⟩ 0 ⟨0, 0, 0⟩ (sampleRegister [3, 12]) ∧
      StatusAgrees (sampleRegister [3, 12]) 0 :=
  (scheduler_agrees_iff (by decide) 0 _ _).mpr (by decide)

/-- Entry 1 alone is listed as entry 14. -/
theorem scheduler_agrees_refuted : ¬ ∀ (model : SchedulerModel) (r : Rand) (list : GSchdList 1),
    model.Acceptable → ActionAgrees model 0 r list ∧ StatusAgrees list 0 := by
  intro h
  obtain ⟨-, schedulers, hschedulers, -, hlists, -⟩ :=
    h ⟨0xFFE47, 3⟩ ⟨0, 0, 0⟩ (sampleRegister [1]) (by decide)
  have hread : SigSchedulerStatus.initWithParameters
      (toLE 2 (getSchdEntry (sampleRegister [1]) 0).toNat) = some [14] := by decide
  rw [hread] at hschedulers
  cases hschedulers
  obtain ⟨i, hi, hvalid⟩ := (hlists 14).mp List.mem_cons_self
  have hlast : i = 14 := Fin.ext hi
  rw [hlast] at hvalid
  exact absurd hvalid (by decide)

end PirMesh
