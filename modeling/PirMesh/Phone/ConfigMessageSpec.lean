import PirMesh.Phone.ConfigMessage

/-! # Phone — Which configuration messages come back (`SigConfigMessage.m`)

For each class: the fields that come back when their parameters are decoded, and the
parameters that come back when they are decoded and written again.  Five classes have a
slip.  The publication status shifts the resolution out; the label of a virtual
publication is made of a text with underscores and cut at its first dash; the three virtual
subscriptions take a vendor's parameters to be two octets longer; and the vendor list
reads the model where it writes the company.  Beyond these, the long form of a
model does not come back when its company is 0, nor an odd octet behind a list
(`configMessage_exact`). -/

namespace PirMesh.ConfigMessage

open Words

/-! ### Octets -/

/-- The fields of one octet of the settings. -/
theorem octet_fields (b : Byte) :
    (b &&& (0x3F : Byte) &&& (0x3F : Byte)) ||| (b >>> 6) <<< 6 = b ∧
    (b &&& (0x07 : Byte) &&& (0x07 : Byte)) ||| (b >>> 3) <<< 3 = b ∧
    (b &&& (0xE0 : Byte) = 0 → (b &&& (0x0F : Byte)) ||| ((b &&& (0x10 : Byte)) >>> 4) <<< 4 = b) ∧
    ((b &&& (0x3F : Byte) &&& (0x3F : Byte)) ||| (0 : Byte) = b ↔ b >>> 6 = 0) := by
  have hall : ∀ b : Byte, (b &&& (0x3F : Byte) &&& (0x3F : Byte)) ||| (b >>> 6) <<< 6 = b ∧
      (b &&& (0x07 : Byte) &&& (0x07 : Byte)) ||| (b >>> 3) <<< 3 = b ∧
      (b &&& (0xE0 : Byte) = 0 →
        (b &&& (0x0F : Byte)) ||| ((b &&& (0x10 : Byte)) >>> 4) <<< 4 = b) ∧
      ((b &&& (0x3F : Byte) &&& (0x3F : Byte)) ||| (0 : Byte) = b ↔ b >>> 6 = 0) := by
    decide +kernel
  exact hall b

/-- Steps of five bits come back from the interval. -/
theorem steps_initWith (count interval : Byte) :
    (SigRetransmit.initWithPublishRetransmitCount count interval).steps = interval := by
  have hall : ∀ interval : Byte,
      (((interval.setWidth 16 + 1 : BitVec 16) * 50) / 50 - 1).setWidth 8 = interval := by
    decide +kernel
  exact hall interval

theorem rawValue_ofRaw (b : Byte) : (SigStepResolution.ofRaw (b >>> 6)).rawValue = b >>> 6 := by
  have hall : ∀ b : Byte, (SigStepResolution.ofRaw (b >>> 6)).rawValue = b >>> 6 := by
    decide +kernel
  exact hall b

theorem rawValue_shift (resolution : SigStepResolution) : resolution.rawValue >>> 6 = 0 := by
  cases resolution <;> rfl

theorem format_address (address : BitVec 16) :
    LibTools.uint16From16String (LibTools.format04X address.toNat) = address := by
  rw [LibTools.uint16From16String_format address.isLt, BitVec.ofNat_toNat, BitVec.setWidth_eq]

/-- The two octets of the index and the flag. -/
theorem index_octets (high low : Byte) :
    ((high ++ low) &&& (0x0FFF : BitVec 16) &&& 0xFF).setWidth 8 = low ∧
    (((high ++ low) &&& (0x0FFF : BitVec 16)) >>> 8).setWidth 8 = high &&& 0x0F := by
  have hmask : (high ++ low) &&& (0x0FFF : BitVec 16) = (high &&& 0x0F) ++ low := by
    have hsplit : (0x0FFF : BitVec 16) = (0x0F : Byte) ++ (0xFF : Byte) := rfl
    rw [hsplit, BitVec.and_append, show (0xFF : Byte) = BitVec.allOnes 8 from rfl,
      BitVec.and_allOnes]
  have hbyte : (0xFF : BitVec 16) = (0 : Byte) ++ (0xFF : Byte) := rfl
  constructor
  · rw [hmask, hbyte, BitVec.and_append, setWidth_append,
      show (0xFF : Byte) = BitVec.allOnes 8 from rfl, BitVec.and_allOnes]
  · rw [hmask, setWidth_append_shift]

/-! ### What the classes share -/

/-- The settings that are read are written as they were; `r` is the resolution as it is
written. -/
theorem settings_read (destination : BitVec 16) (data : List Byte) (off : ℕ) (r : Byte)
    (hreserved : data.getD (off + 1) 0 &&& 0xE0 = 0) :
    (readSettings (.initWithDestination destination) data off).settings r =
      [data.getD off 0, data.getD (off + 1) 0, data.getD (off + 2) 0,
        (data.getD (off + 3) 0 &&& 0x3F &&& 0x3F) ||| r, data.getD (off + 4) 0] := by
  have hindex := index_octets (data.getD (off + 1) 0) (data.getD off 0)
  have hcredentials : ∀ b : Byte,
      ((((b &&& 0x10) >>> 4).setWidth 32 : BitVec 32) <<< 4).setWidth 8 =
        ((b &&& 0x10) >>> 4) <<< 4 := by
    decide +kernel
  have hflag := (octet_fields (data.getD (off + 1) 0)).2.2.1 hreserved
  have hretransmit := (octet_fields (data.getD (off + 4) 0)).2.1
  rw [← hcredentials, ← hindex.2] at hflag
  rw [← steps_initWith (data.getD (off + 4) 0 &&& 0x07) (data.getD (off + 4) 0 >>> 3)]
    at hretransmit
  rw [SigPublish.settings]
  exact congrArg₂ _ hindex.1 (congrArg₂ _ hflag (congrArg₂ _ rfl (congrArg₂ _ rfl
    (congrArg₂ _ hretransmit rfl))))

theorem address_read (destination : BitVec 16) (data : List Byte) (off : ℕ) :
    LibTools.uint16From16String (readSettings (.initWithDestination destination) data off).address =
      destination :=
  format_address destination

theorem element_read (opCode : SigOpCode) (data : List Byte) (element model : ℕ) (vendor : Bool) :
    (readModel opCode data element model vendor).elementAddress = word data element := rfl

/-- The model that is read is written as it was, a vendor's with a company other than 0. -/
theorem modelBytes_read (opCode : SigOpCode) (data : List Byte) (element model : ℕ)
    (vendor : Bool) : (readModel opCode data element model vendor).modelBytes =
      if vendor then
        if word data model ≠ 0 then octets data model 4 else octets data (model + 2) 2
      else octets data model 2 := by
  cases vendor with
  | false => exact (if_neg (not_not_intro rfl)).trans (wordBytes_word data model)
  | true =>
    by_cases hcompany : word data model = 0
    · refine (if_neg (not_not_intro hcompany)).trans ?_
      rw [if_pos rfl, if_neg (not_not_intro hcompany)]
      exact wordBytes_word data (model + 2)
    · refine (if_pos hcompany).trans ?_
      rw [if_pos rfl, if_pos hcompany]
      exact congrArg₂ _ (wordBytes_word data model) (wordBytes_word data (model + 2))

/-! ### Fields that go out and come back -/

/-- The settings of a publication, in the widths they have in a message. -/
structure SettingsFields where
  index : BitVec 12
  flag : Bool
  ttl : Byte
  steps : BitVec 6
  resolution : SigStepResolution
  count : BitVec 3
  interval : BitVec 5

/-- The credentials. -/
def SettingsFields.credentials (w : SettingsFields) : BitVec 32 := if w.flag then 1 else 0

def SettingsFields.publish (w : SettingsFields) (init : BitVec 16 → BitVec 32 → Byte → Byte →
    SigStepResolution → SigRetransmit → SigPublish) : SigPublish :=
  init (w.index.setWidth 16) w.credentials w.ttl (w.steps.setWidth 8) w.resolution
    (.initWithPublishRetransmitCount (w.count.setWidth 8) (w.interval.setWidth 8))

/-- An index of twelve bits and the flag share their second octet. -/
theorem index_fields (w : SettingsFields) :
    let high : Byte := (w.index.setWidth 16 >>> 8).setWidth 8 ||| (w.credentials <<< 4).setWidth 8
    (high ++ ((w.index.setWidth 16 &&& 0xFF).setWidth 8 : Byte)) &&& (0x0FFF : BitVec 16) =
      w.index.setWidth 16 ∧ ((high &&& 0x10) >>> 4).setWidth 32 = w.credentials := by
  have hall : ∀ hi : Byte, hi.toNat < 16 → ∀ flag : Bool,
      (hi ||| (((if flag then 1 else 0 : BitVec 32)) <<< 4).setWidth 8) &&& 0x0F = hi ∧
      (((hi ||| (((if flag then 1 else 0 : BitVec 32)) <<< 4).setWidth 8) &&& 0x10) >>> 4).setWidth
        32 = (if flag then 1 else 0 : BitVec 32) := by
    decide +kernel
  have hhi : ((w.index.setWidth 16 >>> 8).setWidth 8 : Byte).toNat < 16 := by
    have hlt := w.index.isLt
    rw [BitVec.toNat_setWidth, BitVec.toNat_ushiftRight, BitVec.toNat_setWidth,
      Nat.shiftRight_eq_div_pow]
    omega
  have hsplit := append_wordBytes (w.index.setWidth 16)
  have hmask : (0x0FFF : BitVec 16) = (0x0F : Byte) ++ (0xFF : Byte) := rfl
  have hbyte : (0xFF : BitVec 16) = (0 : Byte) ++ (0xFF : Byte) := rfl
  have hones : (0xFF : Byte) = BitVec.allOnes 8 := rfl
  have hlow : ((w.index.setWidth 16 &&& 0xFF).setWidth 8 : Byte) =
      (w.index.setWidth 16).setWidth 8 := by
    rw [BitVec.setWidth_and, hbyte, setWidth_append, hones, BitVec.and_allOnes]
  obtain ⟨hindex, hflag⟩ := hall _ hhi w.flag
  refine ⟨?_, hflag⟩
  rw [hmask, BitVec.and_append, hones, BitVec.and_allOnes, hlow]
  exact (congrArg (· ++ _) hindex).trans hsplit

/-- The other octets of the settings. -/
theorem octets_fields (steps : BitVec 6) (count : BitVec 3) (interval : BitVec 5) :
    (steps.setWidth 8 : Byte) &&& 0x3F = steps.setWidth 8 ∧
    ((count.setWidth 8 &&& (0x07 : Byte)) ||| ((interval.setWidth 8 : Byte) <<< 3)) &&& 0x07 =
      count.setWidth 8 ∧
    ((count.setWidth 8 &&& (0x07 : Byte)) ||| ((interval.setWidth 8 : Byte) <<< 3)) >>> 3 =
      interval.setWidth 8 := by
  have hsteps : ∀ steps : BitVec 6, (steps.setWidth 8 : Byte) &&& 0x3F = steps.setWidth 8 := by
    decide +kernel
  have hretransmit : ∀ (count : BitVec 3) (interval : BitVec 5),
      ((count.setWidth 8 &&& (0x07 : Byte)) ||| ((interval.setWidth 8 : Byte) <<< 3)) &&& 0x07 =
        (count.setWidth 8 : Byte) ∧
      ((count.setWidth 8 &&& (0x07 : Byte)) ||| ((interval.setWidth 8 : Byte) <<< 3)) >>> 3 =
        (interval.setWidth 8 : Byte) := by
    decide +kernel
  exact ⟨hsteps steps, hretransmit count interval⟩

/-- The settings that are written are read as they were, but for the resolution `r`. -/
theorem readSettings_fields (w : SettingsFields) (destination : BitVec 16) (data : List Byte)
    (off : ℕ) {r : Byte} (hr : r &&& 0x3F = 0)
    (h : (data.drop off).take 5 = (w.publish (.initWithDestination destination)).settings r)
    (init : BitVec 16 → BitVec 32 → Byte → Byte → SigStepResolution → SigRetransmit →
      SigPublish) :
    readSettings init data off = SettingsFields.publish
      { w with
        resolution := .ofRaw (((w.steps.setWidth 8 &&& (0x3F : Byte)) ||| r) >>> 6) } init := by
  have hindex := index_fields w
  obtain ⟨hsteps, hcount, hinterval⟩ := octets_fields w.steps w.count w.interval
  have h0 : data.getD off 0 = (w.index.setWidth 16 &&& 0xFF).setWidth 8 :=
    getD_of_part (i := 0) h (by decide)
  have h1 : data.getD (off + 1) 0 =
      (w.index.setWidth 16 >>> 8).setWidth 8 ||| (w.credentials <<< 4).setWidth 8 :=
    getD_of_part h (by decide)
  have h2 : data.getD (off + 2) 0 = w.ttl := getD_of_part h (by decide)
  have h3 : data.getD (off + 3) 0 = (w.steps.setWidth 8 &&& (0x3F : Byte)) ||| r :=
    getD_of_part h (by decide)
  have h4 : data.getD (off + 4) 0 =
      (w.count.setWidth 8 &&& (0x07 : Byte)) ||| ((w.interval.setWidth 8 : Byte) <<< 3) :=
    (getD_of_part h (by decide)).trans
      (congrArg (fun b : Byte => (w.count.setWidth 8 &&& (0x07 : Byte)) ||| (b <<< 3))
        (steps_initWith _ _))
  have h3' : ((w.steps.setWidth 8 &&& (0x3F : Byte)) ||| r) &&& 0x3F = w.steps.setWidth 8 := by
    rw [BitVec.and_or_distrib_right, hr, hsteps, hsteps]
    exact BitVec.or_zero
  unfold readSettings
  dsimp only
  rw [word, h0, h1, h2, h3, h4, hindex.1, hindex.2, h3', hcount, hinterval]
  rfl

/-- The shifted resolution is above the steps, and comes back. -/
theorem resolution_fields (w : SettingsFields) :
    (w.resolution.rawValue <<< 6) &&& 0x3F = 0 ∧
    SigStepResolution.ofRaw
      (((w.steps.setWidth 8 &&& (0x3F : Byte)) ||| (w.resolution.rawValue <<< 6)) >>> 6) =
        w.resolution := by
  have hall : ∀ steps : BitVec 6,
      ((steps.setWidth 8 &&& (0x3F : Byte)) ||| ((0b00 : Byte) <<< 6)) >>> 6 = 0b00 ∧
      ((steps.setWidth 8 &&& (0x3F : Byte)) ||| ((0b01 : Byte) <<< 6)) >>> 6 = 0b01 ∧
      ((steps.setWidth 8 &&& (0x3F : Byte)) ||| ((0b10 : Byte) <<< 6)) >>> 6 = 0b10 ∧
      ((steps.setWidth 8 &&& (0x3F : Byte)) ||| ((0b11 : Byte) <<< 6)) >>> 6 = 0b11 := by
    decide +kernel
  obtain ⟨h0, h1, h2, h3⟩ := hall w.steps
  cases hres : w.resolution with
  | hundredsOfMilliseconds => exact ⟨rfl, congrArg SigStepResolution.ofRaw h0⟩
  | seconds => exact ⟨rfl, congrArg SigStepResolution.ofRaw h1⟩
  | tensOfSeconds => exact ⟨rfl, congrArg SigStepResolution.ofRaw h2⟩
  | tensOfMinutes => exact ⟨rfl, congrArg SigStepResolution.ofRaw h3⟩

/-- Without it the resolution that comes back is the lowest. -/
theorem resolution_zero (w : SettingsFields) :
    SigStepResolution.ofRaw (((w.steps.setWidth 8 &&& (0x3F : Byte)) ||| (0 : Byte)) >>> 6) =
      .hundredsOfMilliseconds := by
  have hall : ∀ steps : BitVec 6,
      ((steps.setWidth 8 &&& (0x3F : Byte)) ||| (0 : Byte)) >>> 6 = 0b00 := by
    decide +kernel
  exact congrArg SigStepResolution.ofRaw (hall w.steps)

/-! ### The label of a virtual publication -/

theorem nsstringToHex_eq {text : List Char} (h : text.length ≠ 1) :
    LibTools.nsstringToHex text = LibTools.hexPairs text := by
  cases text with
  | nil => rfl
  | cons c text =>
    cases text with
    | nil => exact absurd rfl h
    | cons d text => rfl

/-- The digits of some octets in front of a text. -/
theorem hexPairs_octets (l : List Byte) (text : List Char) :
    LibTools.hexPairs (l.flatMap CBUUID.hexOctet ++ text) = l ++ LibTools.hexPairs text := by
  induction l with
  | nil => rfl
  | cons b l ih =>
    have hb := b.isLt
    rw [List.flatMap_cons, List.append_assoc, CBUUID.hexOctet]
    refine (LibTools.hexPairs_cons (by omega) (by omega) _).trans ?_
    rw [Nat.div_add_mod, BitVec.ofNat_toNat, BitVec.setWidth_eq]
    exact congrArg (b :: ·) ih

/-- The octets of a UUID are read up to the first dash. -/
theorem getData_eq (uuid : CBUUID) : uuid.getData = uuid.data.take 4 := by
  have hdash : ∀ text, LibTools.hexPairs ('-' :: text) = [] := by
    intro text
    cases text with
    | nil => rfl
    | cons c text => rfl
  rw [CBUUID.getData, nsstringToHex_eq, CBUUID.uuidString]
  · rw [List.append_assoc, List.append_assoc, List.append_assoc, hexPairs_octets,
      List.cons_append, hdash, List.append_nil]
  · rw [CBUUID.uuidString]
    simp only [List.length_append, List.length_cons]
    omega

/-- A label leaves at most four octets. -/
theorem length_label_le (uuidWithString : List Char → Option CBUUID) (p : SigPublish) :
    (((p.virtualLabel uuidWithString).map CBUUID.getData).getD []).length ≤ 4 := by
  cases p.virtualLabel uuidWithString with
  | none => exact Nat.zero_le 4
  | some uuid =>
    show uuid.getData.length ≤ 4
    rw [getData_eq]
    exact List.length_take_le 4 _

theorem length_modelBytes (m : SigConfigAnyModelMessage) :
    m.modelBytes.length = if m.companyIdentifier = 0 then 2 else 4 := by
  rw [SigConfigAnyModelMessage.modelBytes, ite_not]
  split <;> rfl

/-- **No virtual publication** comes to 25 octets or 27. -/
theorem length_virtualAddressSet (uuidWithString : List Char → Option CBUUID)
    (m : SigConfigModelPublicationVirtualAddressSet) :
    (m.parameters uuidWithString).length ≤ 15 := by
  have hlabel := length_label_le uuidWithString m.publish
  have hmodel := length_modelBytes m.toSigConfigAnyModelMessage
  have hsettings :
      (m.publish.settings (m.publish.periodResolution.rawValue <<< 6)).length = 5 := rfl
  have hle : m.modelBytes.length ≤ 4 := by
    rw [hmodel]
    split <;> omega
  simp only [SigConfigModelPublicationVirtualAddressSet.parameters, List.length_append,
    length_wordBytes, hsettings]
  omega

/-! ### The model at the end -/

/-- The model that is written is read as it was. -/
theorem readModel_modelBytes (m : SigConfigAnyModelMessage) (data : List Byte) (element off : ℕ)
    (helement : word data element = m.elementAddress) (hoff : off ≤ data.length)
    (hdata : data.drop off = m.modelBytes) :
    readModel m.opCode data element off (data.length == off + 4) = m ∧
      data.length = if m.companyIdentifier = 0 then off + 2 else off + 4 := by
  have hlen : data.length = off + m.modelBytes.length := by
    rw [← hdata, List.length_drop]
    omega
  rw [length_modelBytes] at hlen
  have hget : ∀ i, data.getD (off + i) 0 = m.modelBytes.getD i 0 := by
    intro i
    rw [← hdata, List.getD_eq_getElem?_getD, List.getD_eq_getElem?_getD, List.getElem?_drop]
  by_cases hcompany : m.companyIdentifier = 0
  · rw [if_pos hcompany] at hlen ⊢
    have hbytes : m.modelBytes = wordBytes m.modelIdentifier := if_neg (not_not_intro hcompany)
    have hmodel : word data off = m.modelIdentifier := by
      have h0 := hget 0
      rw [word, hget 1, show data.getD off 0 = _ from h0, hbytes]
      exact append_wordBytes _
    refine ⟨?_, hlen⟩
    have hvendor : (data.length == off + 4) = false := beq_eq_false_iff_ne.mpr (by omega)
    rw [hvendor, readModel, helement]
    simp only [Bool.false_eq_true, if_false, hmodel, ← hcompany]
  · rw [if_neg hcompany] at hlen ⊢
    have hbytes : m.modelBytes = wordBytes m.companyIdentifier ++ wordBytes m.modelIdentifier :=
      if_pos hcompany
    have hfirst : word data off = m.companyIdentifier := by
      have h0 := hget 0
      rw [word, hget 1, show data.getD off 0 = _ from h0, hbytes]
      exact append_wordBytes _
    have hmodel : word data (off + 2) = m.modelIdentifier := by
      rw [word, hget 2, Nat.add_assoc, hget 3, hbytes]
      exact append_wordBytes _
    refine ⟨?_, hlen⟩
    have hvendor : (data.length == off + 4) = true := beq_iff_eq.mpr hlen
    rw [hvendor, readModel, helement]
    simp only [if_true, hfirst, hmodel]

/-- Octets and the model read behind them are all of the parameters, but for a vendor's of
company 0. -/
theorem octets_model (opCode : SigOpCode) (data : List Byte) (element off : ℕ)
    (hlen : data.length = off + 2 ∨ data.length = off + 4) :
    octets data 0 off ++ (readModel opCode data element off (data.length == off + 4)).modelBytes =
      data ↔ (data.length = off + 4 → word data off ≠ 0) := by
  have hall := octets_all data
  have hadd : ∀ a n, octets data 0 (a + n) = octets data 0 a ++ octets data (0 + a) n :=
    fun a n => Reassembly.read_add _ 0 a n
  rw [modelBytes_read]
  obtain hlen | hlen := hlen
  · have hvendor : (data.length == off + 4) = false := beq_eq_false_iff_ne.mpr (by omega)
    rw [hlen, hadd, Nat.zero_add] at hall
    rw [hvendor, if_neg Bool.false_ne_true]
    exact iff_of_true hall fun h => absurd (hlen.symm.trans h) (by omega)
  · have hvendor : (data.length == off + 4) = true := beq_iff_eq.mpr hlen
    rw [hvendor, if_pos rfl]
    by_cases hcompany : word data off = 0
    · rw [if_neg (not_not_intro hcompany)]
      refine iff_of_false (fun h => ?_) fun h => h hlen hcompany
      have hlens := congrArg List.length h
      rw [List.length_append, octets, octets, Reassembly.length_read, Reassembly.length_read]
        at hlens
      omega
    · rw [hlen, hadd, Nat.zero_add] at hall
      rw [if_pos hcompany]
      exact iff_of_true hall fun _ => hcompany

/-! ### The classes -/

/-- The element and the model of a message; the company is 0 for a model of the SIG. -/
structure ModelFields where
  element : BitVec 16
  model : BitVec 16
  company : BitVec 16

def ModelFields.message (w : ModelFields) (opCode : SigOpCode) : SigConfigAnyModelMessage :=
  ⟨opCode, w.element, w.model, w.company⟩

/-- The messages of each class. -/
def Message : SigOpCode → Type
  | .configModelPublicationSet => SigConfigModelPublicationSet
  | .configModelPublicationStatus => SigConfigModelPublicationStatus
  | .configModelPublicationVirtualAddressSet => SigConfigModelPublicationVirtualAddressSet
  | .configModelSubscriptionAdd => SigConfigModelSubscriptionAdd
  | .configModelSubscriptionVirtualAddressAdd
  | .configModelSubscriptionVirtualAddressDelete
  | .configModelSubscriptionVirtualAddressOverwrite => SubscriptionVirtualAddress
  | .configSIGModelSubscriptionList => SigConfigSIGModelSubscriptionList
  | .configVendorModelSubscriptionList => SigConfigVendorModelSubscriptionList

def parameters (uuidWithString : List Char → Option CBUUID) :
    (c : SigOpCode) → Message c → List Byte
  | .configModelPublicationSet => SigConfigModelPublicationSet.parameters
  | .configModelPublicationStatus => SigConfigModelPublicationStatus.parameters
  | .configModelPublicationVirtualAddressSet =>
    SigConfigModelPublicationVirtualAddressSet.parameters uuidWithString
  | .configModelSubscriptionAdd => SigConfigModelSubscriptionAdd.parameters
  | .configModelSubscriptionVirtualAddressAdd
  | .configModelSubscriptionVirtualAddressDelete
  | .configModelSubscriptionVirtualAddressOverwrite => SubscriptionVirtualAddress.parameters
  | .configSIGModelSubscriptionList => SigConfigSIGModelSubscriptionList.parameters
  | .configVendorModelSubscriptionList => SigConfigVendorModelSubscriptionList.parameters

def initWithParameters : (c : SigOpCode) → List Byte → Option (Message c)
  | .configModelPublicationSet => SigConfigModelPublicationSet.initWithParameters
  | .configModelPublicationStatus => SigConfigModelPublicationStatus.initWithParameters
  | .configModelPublicationVirtualAddressSet =>
    SigConfigModelPublicationVirtualAddressSet.initWithParameters
  | .configModelSubscriptionAdd => SigConfigModelSubscriptionAdd.initWithParameters
  | .configModelSubscriptionVirtualAddressAdd =>
    SigConfigModelSubscriptionVirtualAddressAdd.initWithParameters
  | .configModelSubscriptionVirtualAddressDelete =>
    SigConfigModelSubscriptionVirtualAddressDelete.initWithParameters
  | .configModelSubscriptionVirtualAddressOverwrite =>
    SigConfigModelSubscriptionVirtualAddressOverwrite.initWithParameters
  | .configSIGModelSubscriptionList => SigConfigSIGModelSubscriptionList.initWithParameters
  | .configVendorModelSubscriptionList =>
    SigConfigVendorModelSubscriptionList.initWithParameters

/-- The fields of a message of each class, in the widths they have there. -/
def Fields : SigOpCode → Type
  | .configModelPublicationSet => ModelFields × BitVec 16 × SettingsFields
  | .configModelPublicationStatus => Byte × ModelFields × BitVec 16 × SettingsFields
  | .configModelPublicationVirtualAddressSet => ModelFields × CBUUID × SettingsFields
  | .configModelSubscriptionAdd => ModelFields × BitVec 16
  | .configModelSubscriptionVirtualAddressAdd
  | .configModelSubscriptionVirtualAddressDelete
  | .configModelSubscriptionVirtualAddressOverwrite => ModelFields × CBUUID
  | .configSIGModelSubscriptionList => Byte × BitVec 16 × BitVec 16 × List (BitVec 16)
  | .configVendorModelSubscriptionList => Byte × ModelFields × List (BitVec 16)

def message : (c : SigOpCode) → Fields c → Message c
  | .configModelPublicationSet, w =>
    SigConfigModelPublicationSet.mk (w.1.message .configModelPublicationSet)
      (w.2.2.publish (.initWithDestination w.2.1))
  | .configModelPublicationStatus, w =>
    SigConfigModelPublicationStatus.mk (w.2.1.message .configModelPublicationStatus) w.1
      (w.2.2.2.publish (.initWithDestination w.2.2.1))
  | .configModelPublicationVirtualAddressSet, w =>
    SigConfigModelPublicationVirtualAddressSet.mk
      (w.1.message .configModelPublicationVirtualAddressSet)
      (w.2.2.publish (.initWithStringDestination (convertDataToHexStr w.2.1.data)))
  | .configModelSubscriptionAdd, w =>
    SigConfigModelSubscriptionAdd.mk (w.1.message .configModelSubscriptionAdd) w.2
  | .configModelSubscriptionVirtualAddressAdd, w =>
    SubscriptionVirtualAddress.mk (w.1.message .configModelSubscriptionVirtualAddressAdd) w.2
  | .configModelSubscriptionVirtualAddressDelete, w =>
    SubscriptionVirtualAddress.mk (w.1.message .configModelSubscriptionVirtualAddressDelete) w.2
  | .configModelSubscriptionVirtualAddressOverwrite, w =>
    SubscriptionVirtualAddress.mk
      (w.1.message .configModelSubscriptionVirtualAddressOverwrite) w.2
  | .configSIGModelSubscriptionList, w =>
    SigConfigSIGModelSubscriptionList.mk .configSIGModelSubscriptionList w.1 w.2.1 w.2.2.1
      w.2.2.2
  | .configVendorModelSubscriptionList, w =>
    SigConfigVendorModelSubscriptionList.mk (w.2.1.message .configVendorModelSubscriptionList)
      w.1 w.2.2

/-- The fields that come back. -/
def FieldsOk : (c : SigOpCode) → Fields c → Prop
  | .configModelPublicationSet, _ => True
  | .configModelPublicationStatus, w => w.2.2.2.resolution = .hundredsOfMilliseconds
  | .configModelPublicationVirtualAddressSet, _ => False
  | .configModelSubscriptionAdd, _ => True
  | .configModelSubscriptionVirtualAddressAdd, w
  | .configModelSubscriptionVirtualAddressDelete, w
  | .configModelSubscriptionVirtualAddressOverwrite, w => w.1.company = 0
  | .configSIGModelSubscriptionList, _ => True
  | .configVendorModelSubscriptionList, w => w.2.1.model = w.2.1.company

/-- The three reserved bits of the settings are zero. -/
def ReservedZero : SigOpCode → List Byte → Prop
  | .configModelPublicationSet, data => data.getD 5 0 &&& 0xE0 = 0
  | .configModelPublicationStatus, data => data.getD 6 0 &&& 0xE0 = 0
  | .configModelPublicationVirtualAddressSet, data => data.getD 19 0 &&& 0xE0 = 0
  | _, _ => True

/-- The parameters that come back. -/
def BytesOk : SigOpCode → List Byte → Prop
  | .configModelPublicationSet, data => data.length = 13 → word data 9 ≠ 0
  | .configModelPublicationStatus, data =>
    data.getD 8 0 >>> 6 = 0 ∧ (data.length = 14 → word data 10 ≠ 0)
  | .configModelPublicationVirtualAddressSet, _ => False
  | .configModelSubscriptionAdd, data => data.length = 8 → word data 4 ≠ 0
  | .configModelSubscriptionVirtualAddressAdd, data
  | .configModelSubscriptionVirtualAddressDelete, data
  | .configModelSubscriptionVirtualAddressOverwrite, data => data.length = 20
  | .configSIGModelSubscriptionList, data => data.length % 2 = 1
  | .configVendorModelSubscriptionList, data =>
    data.length % 2 = 1 ∧ word data 3 = word data 5

/-! ### Publication -/

theorem publicationSet_fields (w : Fields .configModelPublicationSet) :
    SigConfigModelPublicationSet.initWithParameters (SigConfigModelPublicationSet.parameters
      (message .configModelPublicationSet w)) = some (message .configModelPublicationSet w) := by
  obtain ⟨m, destination, settings⟩ := w
  let publish := settings.publish (.initWithDestination destination)
  let data := wordBytes m.element ++ wordBytes destination ++
    publish.settings (publish.periodResolution.rawValue <<< 6) ++
    (m.message .configModelPublicationSet).modelBytes
  have hdata : SigConfigModelPublicationSet.parameters
      (message .configModelPublicationSet (m, destination, settings)) = data :=
    congrArg (fun a => wordBytes m.element ++ wordBytes a ++ _ ++ _) (format_address destination)
  rw [hdata]
  obtain ⟨hmodel, hlen⟩ := readModel_modelBytes (m.message .configModelPublicationSet) data 0 9
    (append_wordBytes m.element)
    (by show 9 ≤ _ + 9; omega) rfl
  have hread := readSettings_fields settings destination data 4
    (resolution_fields settings).1 rfl (.initWithDestination destination)
  rw [(resolution_fields settings).2] at hread
  have hdestination : word data 2 = destination := append_wordBytes destination
  have haccepted : ¬ (data.length ≠ 11 ∧ data.length ≠ 13) := by
    split at hlen <;> omega
  refine (if_neg haccepted).trans (congrArg some ?_)
  rw [hdestination]
  exact congrArg₂ SigConfigModelPublicationSet.mk hmodel hread

theorem publicationSet_bytes {data : List Byte} {m : SigConfigModelPublicationSet}
    (h : SigConfigModelPublicationSet.initWithParameters data = some m)
    (hreserved : data.getD 5 0 &&& 0xE0 = 0) :
    m.parameters = data ↔ (data.length = 13 → word data 9 ≠ 0) := by
  rw [SigConfigModelPublicationSet.initWithParameters] at h
  split at h
  · cases h
  · rename_i haccepted
    obtain rfl := Option.some.inj h
    have hresolution := (octet_fields (data.getD 7 0)).1
    rw [← rawValue_ofRaw] at hresolution
    have hsettings := settings_read (word data 2) data 4
      ((SigStepResolution.ofRaw (data.getD 7 0 >>> 6)).rawValue <<< 6) hreserved
    rw [hresolution] at hsettings
    rw [← octets_model .configModelPublicationSet _ 0 _ (by omega),
      SigConfigModelPublicationSet.parameters]
    dsimp only
    refine iff_of_eq (congrArg (· ++ _ = data) ?_)
    rw [address_read, element_read, wordBytes_word, wordBytes_word]
    exact congrArg (octets data 0 2 ++ octets data 2 2 ++ ·) hsettings

theorem publicationStatus_fields (w : Fields .configModelPublicationStatus) :
    SigConfigModelPublicationStatus.initWithParameters (SigConfigModelPublicationStatus.parameters
      (message .configModelPublicationStatus w)) = some (message .configModelPublicationStatus w) ↔
      w.2.2.2.resolution = .hundredsOfMilliseconds := by
  obtain ⟨status, m, destination, settings⟩ := w
  let publish := settings.publish (.initWithDestination destination)
  let data := status :: (wordBytes m.element ++ wordBytes destination ++ publish.settings 0 ++
    (m.message .configModelPublicationStatus).modelBytes)
  have hdata : SigConfigModelPublicationStatus.parameters
      (message .configModelPublicationStatus (status, m, destination, settings)) = data :=
    congrArg₂ (fun a r => status :: (wordBytes m.element ++ wordBytes a ++ publish.settings r ++
      (m.message .configModelPublicationStatus).modelBytes)) (format_address destination)
      (rawValue_shift settings.resolution)
  rw [hdata]
  obtain ⟨hmodel, hlen⟩ := readModel_modelBytes (m.message .configModelPublicationStatus) data 1 10
    (append_wordBytes m.element)
    (by show 10 ≤ _ + 10; omega) rfl
  have hread := readSettings_fields settings destination data 5 (r := 0) rfl rfl
    (.initWithDestination destination)
  rw [resolution_zero] at hread
  have hdestination : word data 3 = destination := append_wordBytes destination
  have haccepted : ¬ (data.length ≠ 12 ∧ data.length ≠ 14) := by
    split at hlen <;> omega
  have hinit : SigConfigModelPublicationStatus.initWithParameters data =
      some ⟨m.message .configModelPublicationStatus, status,
        SettingsFields.publish { settings with resolution := .hundredsOfMilliseconds }
          (.initWithDestination destination)⟩ := by
    refine (if_neg haccepted).trans (congrArg some ?_)
    rw [hdestination, hread]
    exact congrArg (fun a => SigConfigModelPublicationStatus.mk a status _) hmodel
  rw [hinit]
  constructor
  · intro h
    exact (congrArg (fun m : SigConfigModelPublicationStatus => m.publish.periodResolution)
      (Option.some.inj h)).symm
  · intro h
    rw [← show settings.resolution = _ from h]
    rfl

theorem publicationStatus_bytes {data : List Byte} {m : SigConfigModelPublicationStatus}
    (h : SigConfigModelPublicationStatus.initWithParameters data = some m)
    (hreserved : data.getD 6 0 &&& 0xE0 = 0) : m.parameters = data ↔
      data.getD 8 0 >>> 6 = 0 ∧ (data.length = 14 → word data 10 ≠ 0) := by
  rw [SigConfigModelPublicationStatus.initWithParameters] at h
  split at h
  · cases h
  · rename_i haccepted
    obtain rfl := Option.some.inj h
    have hmodel := octets_model .configModelPublicationStatus data 1 10 (by omega)
    have hsettings := settings_read (word data 3) data 5 0 hreserved
    have hresolution := (octet_fields (data.getD 8 0)).2.2.2
    rw [SigConfigModelPublicationStatus.parameters]
    dsimp only
    rw [address_read, rawValue_shift, hsettings, wordBytes_word, element_read, wordBytes_word]
    -- the octet of the period is the only one that may differ
    have hparameters : ∀ l : List Byte, data.getD 0 0 :: (octets data 1 2 ++ octets data 3 2 ++
        [data.getD 5 0, data.getD (5 + 1) 0, data.getD (5 + 2) 0,
          (data.getD (5 + 3) 0 &&& 0x3F &&& 0x3F) ||| 0, data.getD (5 + 4) 0] ++ l) =
        octets data 0 8 ++
          ((data.getD 8 0 &&& 0x3F &&& 0x3F) ||| 0) :: data.getD 9 0 :: l := fun l => rfl
    have hten : ∀ l : List Byte, octets data 0 10 ++ l =
        octets data 0 8 ++ data.getD 8 0 :: data.getD 9 0 :: l := fun l => rfl
    rw [hparameters]
    by_cases hzero : data.getD 8 0 >>> 6 = 0
    · rw [hresolution.mpr hzero, ← hten, and_iff_right hzero]
      exact hmodel
    · refine iff_of_false (fun h => hzero (hresolution.mp ?_)) fun h => hzero h.1
      have hat := congrArg (fun l : List Byte => l.getD 8 0) h
      exact hat

/-- The parameters of a virtual publication are refused. -/
theorem virtualAddressSet_refused (uuidWithString : List Char → Option CBUUID)
    (m : SigConfigModelPublicationVirtualAddressSet) :
    SigConfigModelPublicationVirtualAddressSet.initWithParameters (m.parameters uuidWithString) =
      none := by
  have hlen := length_virtualAddressSet uuidWithString m
  exact if_pos ⟨by omega, by omega⟩

theorem virtualAddressSet_bytes (uuidWithString : List Char → Option CBUUID) {data : List Byte}
    {m : SigConfigModelPublicationVirtualAddressSet}
    (h : SigConfigModelPublicationVirtualAddressSet.initWithParameters data = some m) :
    m.parameters uuidWithString ≠ data := by
  intro hdata
  rw [← hdata, virtualAddressSet_refused] at h
  cases h

/-! ### Subscription -/

theorem subscriptionAdd_fields (w : Fields .configModelSubscriptionAdd) :
    SigConfigModelSubscriptionAdd.initWithParameters (SigConfigModelSubscriptionAdd.parameters
      (message .configModelSubscriptionAdd w)) = some (message .configModelSubscriptionAdd w) := by
  obtain ⟨m, address⟩ := w
  let data := wordBytes m.element ++ wordBytes address ++
    (m.message .configModelSubscriptionAdd).modelBytes
  obtain ⟨hmodel, hlen⟩ := readModel_modelBytes (m.message .configModelSubscriptionAdd) data 0 4
    (append_wordBytes m.element)
    (by show 4 ≤ _ + 4; omega) rfl
  have haddress : word data 2 = address := append_wordBytes address
  have haccepted : ¬ (data.length ≠ 6 ∧ data.length ≠ 8) := by
    split at hlen <;> omega
  refine (if_neg haccepted).trans (congrArg some ?_)
  exact congrArg₂ SigConfigModelSubscriptionAdd.mk hmodel haddress

theorem subscriptionAdd_bytes {data : List Byte} {m : SigConfigModelSubscriptionAdd}
    (h : SigConfigModelSubscriptionAdd.initWithParameters data = some m) :
    m.parameters = data ↔ (data.length = 8 → word data 4 ≠ 0) := by
  rw [SigConfigModelSubscriptionAdd.initWithParameters] at h
  split at h
  · cases h
  · rename_i haccepted
    obtain rfl := Option.some.inj h
    rw [← octets_model .configModelSubscriptionAdd _ 0 _ (by omega),
      SigConfigModelSubscriptionAdd.parameters]
    dsimp only
    rw [element_read, wordBytes_word, wordBytes_word]
    rfl

/-- The octets of a label. -/
theorem data_uuidWithData (data : List Byte) :
    (CBUUID.uuidWithData ((data.drop 2).take 16)).data = octets data 2 16 := by
  refine List.ext_getElem (by simp [CBUUID.data, octets]) fun i hi _ => ?_
  have hlt : i < 16 := by
    rw [CBUUID.data, List.length_ofFn] at hi
    exact hi
  simp only [CBUUID.data, CBUUID.uuidWithData, List.getElem_ofFn, octets, Reassembly.getElem_read]
  exact (getD_of_part rfl hlt).symm

theorem uuidWithData_data (uuid : CBUUID) : CBUUID.uuidWithData uuid.data = uuid := by
  have hoctet : ∀ i : Fin 16, uuid.data.getD i 0 = uuid.octet i := by
    intro i
    rw [CBUUID.data, List.getD_eq_getElem?_getD, List.getElem?_ofFn, dif_pos i.isLt]
    rfl
  rw [CBUUID.uuidWithData]
  exact congrArg CBUUID.mk (funext hoctet)

theorem length_data (uuid : CBUUID) : uuid.data.length = 16 := List.length_ofFn

/-- A subscription with a label comes back iff its model is one of the SIG. -/
theorem virtualAddress_fields (opCode : SigOpCode) (m : ModelFields) (virtualLabel : CBUUID) :
    let message : SubscriptionVirtualAddress := ⟨m.message opCode, virtualLabel⟩
    SubscriptionVirtualAddress.initWithParameters opCode message.parameters = some message ↔
      m.company = 0 := by
  intro message
  have hlabel := length_data virtualLabel
  have hparameters : message.parameters = wordBytes m.element ++ virtualLabel.data ++
      (m.message opCode).modelBytes := rfl
  have hlength : message.parameters.length = 18 + (m.message opCode).modelBytes.length := by
    rw [hparameters, List.length_append, List.length_append, length_wordBytes, hlabel]
  have hdrop : message.parameters.drop 18 = (m.message opCode).modelBytes := by
    rw [hparameters, List.drop_left']
    rw [List.length_append, length_wordBytes, hlabel]
  have hpart : (message.parameters.drop 2).take 16 = virtualLabel.data := by
    rw [hparameters, List.append_assoc, List.drop_left' (length_wordBytes _),
      List.take_left' hlabel]
  obtain ⟨hmodel, hlen⟩ := readModel_modelBytes (m.message opCode) message.parameters 0 18
    (append_wordBytes m.element) (by omega) hdrop
  by_cases hcompany : m.company = 0
  · have hcompany' : (m.message opCode).companyIdentifier = 0 := hcompany
    rw [if_pos hcompany'] at hlen
    refine iff_of_true ?_ hcompany
    have haccepted : ¬ (message.parameters.length ≠ 20 ∧ message.parameters.length ≠ 24) := by
      omega
    refine (if_neg haccepted).trans (congrArg some ?_)
    have hshort : (message.parameters.length == 24) = (message.parameters.length == 18 + 4) := by
      rw [hlen]
      rfl
    rw [hshort, hpart, uuidWithData_data]
    exact congrArg (SubscriptionVirtualAddress.mk · virtualLabel) hmodel
  · have hcompany' : ¬ (m.message opCode).companyIdentifier = 0 := hcompany
    rw [if_neg hcompany'] at hlen
    refine iff_of_false (fun h => ?_) hcompany
    have hrefused : SubscriptionVirtualAddress.initWithParameters opCode message.parameters =
        none := if_pos ⟨by omega, by omega⟩
    rw [hrefused] at h
    cases h

/-- The parameters of a subscription with a label come back iff they are the short ones. -/
theorem virtualAddress_bytes {opCode : SigOpCode} {data : List Byte}
    {m : SubscriptionVirtualAddress}
    (h : SubscriptionVirtualAddress.initWithParameters opCode data = some m) :
    m.parameters = data ↔ data.length = 20 := by
  rw [SubscriptionVirtualAddress.initWithParameters] at h
  split at h
  · cases h
  · rename_i haccepted
    obtain rfl := Option.some.inj h
    rw [SubscriptionVirtualAddress.parameters]
    dsimp only
    by_cases hlen : data.length = 20
    · have hmodel := octets_model opCode data 0 18 (.inl hlen)
      have hshort : (data.length == 24) = (data.length == 18 + 4) := by
        rw [hlen]
        rfl
      rw [element_read, wordBytes_word, data_uuidWithData, hshort]
      refine iff_of_true (hmodel.mpr fun h => ?_) hlen
      omega
    · refine iff_of_false (fun hdata => ?_) hlen
      have hlens := congrArg List.length hdata
      rw [List.length_append, List.length_append, length_wordBytes, length_data,
        length_modelBytes] at hlens
      split at hlens <;> omega

/-! ### Lists -/

/-- Octets and the addresses read behind them are all of the parameters iff no octet is left. -/
theorem octets_addresses (data : List Byte) (off : ℕ) (hoff : off ≤ data.length) :
    octets data 0 off ++ (readAddresses data off).flatMap wordBytes = data ↔
      (data.length - off) % 2 = 0 := by
  have hsplit : octets data 0 off ++ data.drop off = data := by
    rw [octets_take hoff, List.take_append_drop]
  rw [readAddresses, ← List.length_drop, ← flatMap_words]
  refine ⟨fun h => List.append_cancel_left (h.trans hsplit.symm), fun h => ?_⟩
  rw [h, hsplit]

theorem sigModelList_fields (w : Fields .configSIGModelSubscriptionList) :
    SigConfigSIGModelSubscriptionList.initWithParameters
      (SigConfigSIGModelSubscriptionList.parameters (message .configSIGModelSubscriptionList w)) =
        some (message .configSIGModelSubscriptionList w) := by
  obtain ⟨status, element, model, addresses⟩ := w
  let data := status :: (wordBytes element ++ wordBytes model ++ addresses.flatMap wordBytes)
  have hdata : SigConfigSIGModelSubscriptionList.parameters
      (message .configSIGModelSubscriptionList (status, element, model, addresses)) = data := rfl
  have haddresses : readAddresses data 5 = addresses := words_flatMap addresses
  have haccepted : ¬ data.length < 5 := by
    show ¬ _ + 5 < 5
    omega
  have helement : word data 1 = element := append_wordBytes element
  have hmodel : word data 3 = model := append_wordBytes model
  rw [hdata]
  refine (if_neg haccepted).trans (congrArg some ?_)
  rw [haddresses, helement, hmodel]
  rfl

theorem sigModelList_bytes {data : List Byte} {m : SigConfigSIGModelSubscriptionList}
    (h : SigConfigSIGModelSubscriptionList.initWithParameters data = some m) :
    m.parameters = data ↔ data.length % 2 = 1 := by
  rw [SigConfigSIGModelSubscriptionList.initWithParameters] at h
  split at h
  · cases h
  · rename_i haccepted
    obtain rfl := Option.some.inj h
    have haddresses := octets_addresses data 5 (by omega)
    rw [SigConfigSIGModelSubscriptionList.parameters]
    dsimp only
    rw [wordBytes_word, wordBytes_word]
    refine Iff.trans haddresses ?_
    omega

/-- A vendor's list has the model and the company exchanged. -/
theorem vendorModelList_fields (w : Fields .configVendorModelSubscriptionList) :
    SigConfigVendorModelSubscriptionList.initWithParameters
      (SigConfigVendorModelSubscriptionList.parameters
        (message .configVendorModelSubscriptionList w)) =
        some (message .configVendorModelSubscriptionList w) ↔ w.2.1.model = w.2.1.company := by
  obtain ⟨status, m, addresses⟩ := w
  let data := status :: (wordBytes m.element ++ wordBytes m.company ++ wordBytes m.model ++
    addresses.flatMap wordBytes)
  have haddresses : readAddresses data 7 = addresses := words_flatMap addresses
  have haccepted : ¬ data.length < 7 := by
    show ¬ _ + 7 < 7
    omega
  have helement : word data 1 = m.element := append_wordBytes m.element
  have hcompany : word data 3 = m.company := append_wordBytes m.company
  have hmodel : word data 5 = m.model := append_wordBytes m.model
  have hinit : SigConfigVendorModelSubscriptionList.initWithParameters data =
      some ⟨⟨.configVendorModelSubscriptionList, m.element, m.company, m.model⟩, status,
        addresses⟩ := by
    refine (if_neg haccepted).trans (congrArg some ?_)
    rw [haddresses, helement, hmodel, hcompany]
    rfl
  refine (iff_of_eq (congrArg (· = _) hinit)).trans ⟨fun h => ?_, fun h => ?_⟩
  · exact (congrArg (fun m : SigConfigVendorModelSubscriptionList => m.modelIdentifier)
      (Option.some.inj h)).symm
  · have hexchange : m.model = m.company := h
    exact congrArg₂ (fun a b => some (SigConfigVendorModelSubscriptionList.mk
      ⟨.configVendorModelSubscriptionList, m.element, a, b⟩ status addresses)) hexchange.symm
      hexchange

theorem vendorModelList_bytes {data : List Byte} {m : SigConfigVendorModelSubscriptionList}
    (h : SigConfigVendorModelSubscriptionList.initWithParameters data = some m) :
    m.parameters = data ↔ data.length % 2 = 1 ∧ word data 3 = word data 5 := by
  rw [SigConfigVendorModelSubscriptionList.initWithParameters] at h
  split at h
  · cases h
  · rename_i haccepted
    obtain rfl := Option.some.inj h
    have haddresses := octets_addresses data 7 (by omega)
    rw [SigConfigVendorModelSubscriptionList.parameters]
    dsimp only
    by_cases hexchange : word data 3 = word data 5
    · rw [← hexchange, wordBytes_word, wordBytes_word, and_iff_left rfl]
      have hseven : octets data 0 7 = data.getD 0 0 ::
          (octets data 1 2 ++ octets data 3 2 ++ octets data 5 2) := rfl
      rw [hseven, ← wordBytes_word data 5, ← hexchange, wordBytes_word] at haddresses
      refine Iff.trans haddresses ?_
      omega
    · refine iff_of_false (fun hdata => hexchange ?_) fun h => hexchange h.2
      have hat := congrArg (fun l : List Byte => word l 3) hdata
      exact hat.symm.trans (append_wordBytes _)

/-! ### All classes -/

/-- **The configuration messages**: which fields come back when their parameters are decoded, and
which parameters when they are decoded and written again. -/
theorem configMessage_exact (uuidWithString : List Char → Option CBUUID) (c : SigOpCode) :
    (∀ w : Fields c, initWithParameters c (parameters uuidWithString c (message c w)) =
      some (message c w) ↔ FieldsOk c w) ∧
    ∀ (data : List Byte) (m : Message c), initWithParameters c data = some m →
      ReservedZero c data → (parameters uuidWithString c m = data ↔ BytesOk c data) := by
  cases c with
  | configModelPublicationSet =>
    exact ⟨fun w => iff_of_true (publicationSet_fields w) trivial,
      fun _ _ h hreserved => publicationSet_bytes h hreserved⟩
  | configModelPublicationStatus =>
    exact ⟨publicationStatus_fields, fun _ _ h hreserved => publicationStatus_bytes h hreserved⟩
  | configModelPublicationVirtualAddressSet =>
    refine ⟨fun w => iff_of_false (fun h => ?_) id, fun _ _ h _ =>
      iff_of_false (virtualAddressSet_bytes uuidWithString h) id⟩
    exact nomatch (virtualAddressSet_refused uuidWithString _).symm.trans h
  | configModelSubscriptionAdd =>
    exact ⟨fun w => iff_of_true (subscriptionAdd_fields w) trivial,
      fun _ _ h _ => subscriptionAdd_bytes h⟩
  | configModelSubscriptionVirtualAddressAdd
  | configModelSubscriptionVirtualAddressDelete
  | configModelSubscriptionVirtualAddressOverwrite =>
    exact ⟨fun w => virtualAddress_fields _ w.1 w.2, fun _ _ h _ => virtualAddress_bytes h⟩
  | configSIGModelSubscriptionList =>
    exact ⟨fun w => iff_of_true (sigModelList_fields w) trivial,
      fun _ _ h _ => sigModelList_bytes h⟩
  | configVendorModelSubscriptionList =>
    exact ⟨vendorModelList_fields, fun _ _ h _ => vendorModelList_bytes h⟩

theorem configMessage_sample : ∃ m,
    initWithParameters .configModelPublicationSet
      [0x02, 0x00, 0x00, 0xC0, 0x23, 0x11, 0x07, 0x45, 0x2A, 0x00, 0x10] = some m ∧
    parameters (fun _ => none) .configModelPublicationSet m =
      [0x02, 0x00, 0x00, 0xC0, 0x23, 0x11, 0x07, 0x45, 0x2A, 0x00, 0x10] := by
  refine ⟨_, rfl, ?_⟩
  refine ((configMessage_exact (fun _ => none) .configModelPublicationSet).2 _ _ rfl ?_).mpr ?_
  · exact (show (0x11 : Byte) &&& 0xE0 = 0 from rfl)
  · intro h
    exact absurd h (by decide)

/-- The label of a subscription of a vendor's model is refused when its parameters come back. -/
theorem configMessage_refuted : ¬ ∀ (c : SigOpCode) (w : Fields c),
    initWithParameters c (parameters (fun _ => none) c (message c w)) = some (message c w) := by
  intro h
  have hadd := h .configModelSubscriptionVirtualAddressAdd (⟨0x0002, 0x0001, 0x0211⟩, ⟨fun _ => 0⟩)
  have hnone : initWithParameters .configModelSubscriptionVirtualAddressAdd
      (parameters (fun _ => none) .configModelSubscriptionVirtualAddressAdd
        (message .configModelSubscriptionVirtualAddressAdd
          (⟨0x0002, 0x0001, 0x0211⟩, ⟨fun _ => 0⟩))) = none := rfl
  rw [hnone] at hadd
  cases hadd

end PirMesh.ConfigMessage
