import PirMesh.Light.Level

/-! # Node — The delay of a publication (`mesh_node.c`)

A model publishes again and again, at an interval, with a random delay of up to a fifth of it.  A
health server with a fault, and a sensor server whose reading asks for it, publish faster: they
shift the interval down.

The delay is a remainder modulo twice the tenth part of the interval.  `pubDelay_iff` is when
there is one: an interval of less than 11 ms has no tenth part. -/

namespace PirMesh

/-! ### The interval -/

/-- `SIG_MD_HEALTH_SERVER` -/
def sigMdHealthServer : BitVec 32 := 0x0002

/-- `SIG_MD_SENSOR_S` -/
def sigMdSensorS : BitVec 32 := 0x1100

/-- `mesh_health_mag_sts_t`: the number of faults and the fast period. -/
structure HealthMag where
  curFaultIdx : BitVec 8
  fastPeriodLog : BitVec 8
  deriving DecidableEq, Repr

/-- `sensor_states[0]`: its cadence and its reading. -/
structure SensorStates where
  fastPeriodDiv : BitVec 7
  minInterval : BitVec 8
  cadenceLow : BitVec 32
  cadenceHight : BitVec 32
  sensorData : BitVec 32
  deriving DecidableEq, Repr

/-- `fast_candence`: the reading is in the range of the fast cadence, or out of it when the range
is given upside down. -/
def SensorStates.fastCandence (sensor : SensorStates) : Bool :=
  if sensor.cadenceHight ≥ sensor.cadenceLow then
    sensor.sensorData < sensor.cadenceHight && sensor.sensorData > sensor.cadenceLow
  else sensor.sensorData < sensor.cadenceHight || sensor.sensorData > sensor.cadenceLow

/-- `model_sig_health` and `model_sig_sensor`; the second with `MD_SENSOR_SERVER_EN` only. -/
structure PubServers where
  health : HealthMag
  sensor : Option SensorStates
  deriving DecidableEq, Repr

/-- `PUB_RANDOM_RATE` -/
def pubRandomRate : BitVec 32 := 10

/-- `PUB_RANDOM_DELAY_MAX_MS` -/
def pubRandomDelayMaxMs : BitVec 32 := 2000

/-- The health server has a fault. -/
def isHealthFast (s : PubServers) (modelId : BitVec 32) (sigModel : Bool) : Bool :=
  sigModel && modelId == sigMdHealthServer && s.health.curFaultIdx != 0

/-- The sensor that asks for a faster cadence. -/
def fastSensor (s : PubServers) (modelId : BitVec 32) (sigModel : Bool) : Option SensorStates :=
  if sigModel && modelId == sigMdSensorS then s.sensor.filter SensorStates.fastCandence else none

/-- The fast cadence of a sensor, no shorter than its least interval. -/
def fastCadenceMs (sensor : SensorStates) (stepResMs : BitVec 32) : BitVec 32 :=
  let stepResMs := stepResMs >>> sensor.fastPeriodDiv.toNat
  let least := (1 : BitVec 32) <<< sensor.minInterval.toNat
  if stepResMs < least then least else stepResMs

/-- A shift by 32 or more leaves nothing. -/
def getMeshPubIntervalMs (lib : TransLib) (s : PubServers) (modelId : BitVec 32) (sigModel : Bool)
    (period : BitVec 8) : BitVec 32 :=
  let stepResMs := lib.getTransition100ms period * 100
  let stepResMs := stepResMs + stepResMs / pubRandomRate
  if isHealthFast s modelId sigModel then stepResMs >>> s.health.fastPeriodLog.toNat
  else
    match fastSensor s modelId sigModel with
    | some sensor => fastCadenceMs sensor stepResMs
    | none => stepResMs

/-! ### The delay -/

/-- `rand_max_ms` -/
def randMaxMs (intervalMs : BitVec 32) : BitVec 32 :=
  if intervalMs / (pubRandomRate + 1) > pubRandomDelayMaxMs then pubRandomDelayMaxMs
  else intervalMs / (pubRandomRate + 1)

/-- `none` where it divides by zero; `rand` is the value of `rand()`. -/
def getRandomDelayPubTickMs (intervalMs : BitVec 32) (rand : BitVec 16) : Option (BitVec 32) :=
  if randMaxMs intervalMs * 2 = 0 then none
  else
    let randVal : BitVec 16 := (rand.setWidth 32 % (randMaxMs intervalMs * 2)).setWidth 16
    some (randVal.setWidth 32)

theorem toNat_randMaxMs_mul (intervalMs : BitVec 32) :
    (randMaxMs intervalMs * 2).toNat = 2 * min (intervalMs.toNat / 11) 2000 := by
  have hmin : (randMaxMs intervalMs).toNat = min (intervalMs.toNat / 11) 2000 := by
    unfold randMaxMs
    split_ifs with h
    · rw [gt_iff_lt, BitVec.lt_def, BitVec.toNat_udiv] at h
      exact (min_eq_right h.le).symm
    · rw [gt_iff_lt, BitVec.lt_def, BitVec.toNat_udiv, not_lt] at h
      rw [BitVec.toNat_udiv]
      exact (min_eq_left h).symm
  rw [BitVec.toNat_mul, hmin]
  show _ * 2 % 2 ^ 32 = _
  omega

theorem randMaxMs_mul_eq_zero (intervalMs : BitVec 32) :
    randMaxMs intervalMs * 2 = 0 ↔ intervalMs.toNat < 11 := by
  rw [← BitVec.toNat_inj, toNat_randMaxMs_mul]
  show _ = 0 ↔ _
  omega

/-- It is a delay, whatever `rand()` returns, and less than the interval. -/
def DelayBelow (intervalMs : BitVec 32) : Prop :=
  ∀ rand, ∃ delay ∈ getRandomDelayPubTickMs intervalMs rand, delay < intervalMs

/-- There is a delay once the interval has a tenth part. -/
theorem delayBelow_iff_le (intervalMs : BitVec 32) :
    DelayBelow intervalMs ↔ 11 ≤ intervalMs.toNat := by
  constructor
  · intro h
    by_contra hlt
    obtain ⟨delay, hdelay, -⟩ := h 0
    rw [getRandomDelayPubTickMs, if_pos ((randMaxMs_mul_eq_zero _).mpr (not_le.mp hlt))] at hdelay
    cases hdelay
  · intro hle rand
    have hne : randMaxMs intervalMs * 2 ≠ 0 := by
      intro h0
      exact ((randMaxMs_mul_eq_zero _).mp h0).not_ge hle
    refine ⟨_, if_neg hne, ?_⟩
    -- the remainder is below the range, and the range below a fifth of the interval
    have hpos : 0 < (randMaxMs intervalMs * 2).toNat := by
      rw [toNat_randMaxMs_mul]
      omega
    have hmod := Nat.mod_lt (rand.setWidth 32).toNat hpos
    rw [toNat_randMaxMs_mul] at hmod
    rw [BitVec.lt_def, BitVec.toNat_setWidth, BitVec.toNat_setWidth, BitVec.toNat_umod,
      toNat_randMaxMs_mul]
    omega

/-! ### The condition -/

variable {lib : TransLib} {s : PubServers} {modelId : BitVec 32} {sigModel : Bool}
  {period : BitVec 8}

/-- With a period of `k` units of 100 ms: the interval is not shifted away, or a sensor keeps it
at 16 ms or more. -/
def PeriodLasts (s : PubServers) (modelId : BitVec 32) (sigModel : Bool) (k : ℕ) : Prop :=
  if isHealthFast s modelId sigModel then 2 ^ s.health.fastPeriodLog.toNat ≤ 10 * k
  else
    match fastSensor s modelId sigModel with
    | some sensor => 2 ^ sensor.fastPeriodDiv.toNat ≤ 10 * k ∨
        4 ≤ sensor.minInterval.toNat ∧ sensor.minInterval.toNat < 32
    | none => k ≠ 0

/-- The interval with its tenth part, in ms, is 110 for each unit. -/
theorem toNat_stepResMs (hlib : lib.Lawful) (period : BitVec 8) :
    (lib.getTransition100ms period * 100 +
      lib.getTransition100ms period * 100 / pubRandomRate).toNat =
        110 * (lib.getTransition100ms period).toNat := by
  have hle := hlib.le period
  have hmul : (lib.getTransition100ms period * 100).toNat =
      (lib.getTransition100ms period).toNat * 100 := by
    rw [BitVec.toNat_mul]
    exact Nat.mod_eq_of_lt (by
      show _ * 100 < 2 ^ 32
      omega)
  rw [BitVec.toNat_add, BitVec.toNat_udiv, hmul]
  show (_ + _ / 10) % 2 ^ 32 = _
  omega

/-- A shift leaves 11 ms of so many units. -/
theorem le_ushiftRight_iff {ms : BitVec 32} {k : ℕ} (hms : ms.toNat = 110 * k) (n : ℕ) :
    11 ≤ (ms >>> n).toNat ↔ 2 ^ n ≤ 10 * k := by
  rw [BitVec.toNat_ushiftRight, Nat.shiftRight_eq_div_pow, hms,
    Nat.le_div_iff_mul_le (Nat.two_pow_pos n)]
  omega

theorem toNat_one_shiftLeft (n : ℕ) :
    ((1 : BitVec 32) <<< n).toNat = if n < 32 then 2 ^ n else 0 := by
  rw [BitVec.toNat_shiftLeft, Nat.shiftLeft_eq]
  show 1 % 2 ^ 32 * 2 ^ n % 2 ^ 32 = _
  split_ifs with h
  · rw [Nat.one_mod_two_pow_eq_one.mpr (by decide), one_mul]
    exact Nat.mod_eq_of_lt (Nat.pow_lt_pow_right (by decide) h)
  · obtain ⟨m, rfl⟩ := Nat.exists_eq_add_of_le (not_lt.mp h)
    rw [pow_add, mul_left_comm, Nat.mul_mod_right]

theorem le_one_shiftLeft_iff (n : ℕ) :
    11 ≤ ((1 : BitVec 32) <<< n).toNat ↔ 4 ≤ n ∧ n < 32 := by
  rw [toNat_one_shiftLeft]
  split_ifs with h
  · constructor
    · intro hle
      refine ⟨?_, h⟩
      by_contra hlt
      have hpow : 2 ^ n ≤ 2 ^ 3 := Nat.pow_le_pow_right (by decide) (by omega)
      omega
    · rintro ⟨hge, -⟩
      have hpow : 2 ^ 4 ≤ 2 ^ n := Nat.pow_le_pow_right (by decide) hge
      omega
  · omega

theorem le_fastCadenceMs_iff {ms : BitVec 32} {k : ℕ} (hms : ms.toNat = 110 * k)
    (sensor : SensorStates) :
    11 ≤ (fastCadenceMs sensor ms).toNat ↔ 2 ^ sensor.fastPeriodDiv.toNat ≤ 10 * k ∨
      4 ≤ sensor.minInterval.toNat ∧ sensor.minInterval.toNat < 32 := by
  rw [← le_ushiftRight_iff hms, ← le_one_shiftLeft_iff]
  unfold fastCadenceMs
  dsimp only
  split_ifs with h
  · rw [BitVec.lt_def] at h
    omega
  · rw [BitVec.lt_def] at h
    omega

/-- **A publication has a delay below its interval** exactly when its period lasts. -/
theorem pubDelay_iff (hlib : lib.Lawful) (s : PubServers) (modelId : BitVec 32) (sigModel : Bool)
    (period : BitVec 8) :
    DelayBelow (getMeshPubIntervalMs lib s modelId sigModel period) ↔
      PeriodLasts s modelId sigModel (lib.getTransition100ms period).toNat := by
  have hms := toNat_stepResMs hlib period
  rw [delayBelow_iff_le]
  unfold getMeshPubIntervalMs PeriodLasts
  dsimp only
  split_ifs
  · exact le_ushiftRight_iff hms _
  · cases fastSensor s modelId sigModel with
    | none =>
      dsimp only
      rw [hms]
      omega
    | some sensor => exact le_fastCadenceMs_iff hms sensor

theorem pubDelay_iff_second : DelayBelow (getMeshPubIntervalMs specTransLib
      ⟨⟨1, 0⟩, none⟩ sigMdHealthServer true 0x41) ↔
    PeriodLasts ⟨⟨1, 0⟩, none⟩ sigMdHealthServer true 10 :=
  pubDelay_iff specTransLib_lawful _ _ _ _

/-- A health server with a fault that is to publish sixteen times as often as every 100 ms. -/
theorem pubDelay_refuted : ¬ ∀ (lib : TransLib), lib.Lawful →
    ∀ (s : PubServers) (modelId : BitVec 32) (sigModel : Bool) (period : BitVec 8),
      DelayBelow (getMeshPubIntervalMs lib s modelId sigModel period) := by
  intro h
  obtain ⟨delay, hdelay, -⟩ := h specTransLib specTransLib_lawful ⟨⟨1, 4⟩, none⟩
    sigMdHealthServer true 0x01 0
  have hnone : getRandomDelayPubTickMs (getMeshPubIntervalMs specTransLib ⟨⟨1, 4⟩, none⟩
    sigMdHealthServer true 0x01) 0 = none := by decide
  rw [hnone] at hdelay
  cases hdelay

end PirMesh
