import Mathlib.Data.BitVec
import Mathlib.Logic.Function.Basic
import PirMesh.Library.Run

/-! # Phone — Transaction identifiers (`SigAccessLayer.m`, `SigMeshLib.m`)

A message without a TID gets one when it is sent: the next one of its element and destination, or
the last one when it continues a transaction.  The message keeps it and is sent again with it; but
zero stands for none, and the counter comes to it, so that a message which got zero gets another TID
when it is sent again (`keeps_iff`).  Where that does not happen, a command keeps its TID and a new
transaction has another one than the transaction before (`tids_iff`). -/

namespace PirMesh.AccessLayer

open Run History

/-! ### Transactions -/

/-- Times are in milliseconds. -/
structure SigTransaction where
  lastTid : BitVec 8
  timestamp : Option ℤ
  deriving DecidableEq, Repr

namespace SigTransaction

/-- With what `arc4random` gives. -/
def init (random : BitVec 8) : SigTransaction := ⟨random, none⟩

variable (t : SigTransaction) (now : ℤ)

def currentTid : BitVec 8 × SigTransaction := (t.lastTid, { t with timestamp := some now })

def nextTid : BitVec 8 × SigTransaction :=
  let lastTid := if t.lastTid < 255 then t.lastTid + 1 else 0
  (lastTid, ⟨lastTid, some now⟩)

/-- `timeIntervalSinceNow` of nil is zero. -/
def isActive : Bool := (t.timestamp.map (· - now)).getD 0 > -6000

theorem nextTid_eq : t.nextTid now = (t.lastTid + 1, ⟨t.lastTid + 1, some now⟩) := by
  have hnext : (if t.lastTid < 255 then t.lastTid + 1 else 0) = t.lastTid + 1 := by
    split_ifs with hlt
    · rfl
    · have hmax : t.lastTid = 255 := by
        have hle := t.lastTid.isLt
        exact BitVec.eq_of_toNat_eq (Nat.le_antisymm (Nat.le_of_lt_succ hle)
          (Nat.le_of_not_lt hlt))
      rw [hmax]
      rfl
  simp only [nextTid, hnext]

end SigTransaction

/-! ### Sending a message (`SigAccessLayer.m`) -/

/-- Other messages have no TID. -/
structure SigGenericMessage where
  isTransactionMessage : Bool
  continueTransaction : Bool
  tid : BitVec 8
  deriving DecidableEq, Repr

/-- A command with all that its message is sent with; of the key, whether there is one. -/
structure SDKLibCommand where
  curMeshMessage : SigGenericMessage
  source : BitVec 16
  destination : BitVec 16
  appkeyA : Bool
  needTid : Bool
  tid : BitVec 8
  deriving DecidableEq, Repr

abbrev Transactions := BitVec 32 → Option SigTransaction

def getKeyForElement (element destination : BitVec 16) : BitVec 32 :=
  element.setWidth 32 <<< 16 ||| destination.setWidth 32

theorem toNat_getKeyForElement (element destination : BitVec 16) :
    (getKeyForElement element destination).toNat =
      element.toNat * 65536 + destination.toNat := by
  have helement : (element.setWidth 32 <<< 16).toNat = element.toNat <<< 16 := by
    have hlt := element.isLt
    rw [BitVec.toNat_shiftLeft, BitVec.toNat_setWidth_of_le (by decide), Nat.shiftLeft_eq]
    exact Nat.mod_eq_of_lt (by omega)
  rw [getKeyForElement, BitVec.toNat_or, helement, BitVec.toNat_setWidth_of_le (by decide),
    ← Nat.shiftLeft_add_eq_or_of_lt destination.isLt, Nat.shiftLeft_eq]

/-- Each element and destination has a key of its own. -/
theorem getKeyForElement_inj {a b c d : BitVec 16} :
    getKeyForElement a b = getKeyForElement c d ↔ a = c ∧ b = d := by
  rw [← BitVec.toNat_inj, toNat_getKeyForElement, toNat_getKeyForElement, ← BitVec.toNat_inj,
    ← BitVec.toNat_inj]
  have hb := b.isLt
  have hd := d.isLt
  omega

/-- What the two methods do with a transaction message that has no TID. -/
def setTid (k : BitVec 32) (now : ℤ) (random : BitVec 8) (message : SigGenericMessage)
    (transactions : Transactions) : SigGenericMessage × Transactions :=
  if message.isTransactionMessage ∧ message.tid = 0 then
    let t := (transactions k).getD (.init random)
    let (tid, t) := if message.continueTransaction ∧ t.isActive now then t.currentTid now
      else t.nextTid now
    ({ message with tid := tid }, Function.update transactions k (some t))
  else (message, transactions)

section

variable (message : SigGenericMessage) (element destination : BitVec 16) (command : SDKLibCommand)
  (now : ℤ) (random : BitVec 8) (transactions : Transactions)

/-- `sendMessage:fromElement:toDestination:withTtl:usingApplicationKey:` -/
def sendMessage : SigGenericMessage × Transactions :=
  setTid (getKeyForElement element destination) now random message transactions

/-- `sendMessage:fromElement:toDestination:withTtl:usingApplicationKey:command:` -/
def sendMessageCommand : SigGenericMessage × Transactions :=
  let genericMessage :=
    if command.needTid ∧ command.tid ≠ 0 then { message with tid := command.tid } else message
  setTid (getKeyForElement element destination) now random genericMessage transactions

/-- The message of a command, in its block on the message queue and in
`retrySendSDKLibCommand:`. -/
def sendMeshMessage : SigGenericMessage × Transactions :=
  if command.appkeyA then
    sendMessageCommand command.curMeshMessage command.source command.destination command now random
      transactions
  else
    sendMessage command.curMeshMessage command.source command.destination now random transactions

end

namespace SDKLibCommand

variable (command : SDKLibCommand)

def key : BitVec 32 := getKeyForElement command.source command.destination

/-- The TID that is given: that of the command, or of the message; zero for none. -/
def given : BitVec 8 :=
  if command.appkeyA ∧ command.needTid ∧ command.tid ≠ 0 then command.tid
  else command.curMeshMessage.tid

theorem sendMeshMessage_eq (now : ℤ) (random : BitVec 8) (transactions : Transactions) :
    sendMeshMessage command now random transactions = setTid command.key now random
      { command.curMeshMessage with tid := command.given } transactions := by
  unfold sendMeshMessage sendMessageCommand sendMessage given
  by_cases hkey : command.appkeyA = true
  · by_cases htid : command.needTid = true ∧ command.tid ≠ 0
    · simp only [hkey, htid, if_true, and_self, ne_eq, not_false_eq_true]
      rfl
    · simp only [hkey, htid, if_true, if_false, true_and]
      rfl
  · simp only [hkey]
    rfl

end SDKLibCommand

/-! ### Runs -/

/-- A message as it was sent: whether it was the first time, and whether it took a new TID. -/
structure Sent where
  id : ℕ
  element : BitVec 16
  destination : BitVec 16
  tid : BitVec 8
  first : Bool
  opened : Bool
  deriving DecidableEq, Repr

def Sent.key (x : Sent) : BitVec 32 := getKeyForElement x.element x.destination

/-- The commands by their number, each with a message of its own, and what was sent of them. -/
structure Layer where
  commands : ℕ → SDKLibCommand
  transactions : Transactions
  log : List Sent

/-- A command is sent, or sent again by its retry timer, at some time; `random` is for a new element
or destination. -/
structure Transmission where
  id : ℕ
  now : ℤ
  random : BitVec 8

namespace Layer

variable (s : Layer) (e : Transmission)

def command : SDKLibCommand := s.commands e.id

/-- The transaction of the command that is sent. -/
def transaction : SigTransaction := (s.transactions (s.command e).key).getD (.init e.random)

/-- The message continues the transaction. -/
def Continues : Prop :=
  (s.command e).curMeshMessage.continueTransaction = true ∧
    (s.transaction e).isActive e.now = true

instance : Decidable (s.Continues e) := inferInstanceAs (Decidable (_ ∧ _))

/-- The message has no TID yet. -/
def Unset : Prop :=
  (s.command e).curMeshMessage.isTransactionMessage = true ∧ (s.command e).given = 0

instance : Decidable (s.Unset e) := inferInstanceAs (Decidable (_ ∧ _))

/-- What is sent, and the transactions after it. -/
def sent : SigGenericMessage × Transactions :=
  sendMeshMessage (s.command e) e.now e.random s.transactions

def entry : Sent where
  id := e.id
  element := (s.command e).source
  destination := (s.command e).destination
  tid := (s.sent e).1.tid
  first := s.log.all fun x => x.id != e.id
  opened := s.Unset e ∧ ¬s.Continues e

def next : Layer where
  commands := Function.update s.commands e.id
    { s.command e with curMeshMessage := (s.sent e).1 }
  transactions := (s.sent e).2
  log := s.log ++ [s.entry e]

/-- No transaction yet. -/
def start (commands : ℕ → SDKLibCommand) : Layer := ⟨commands, fun _ => none, []⟩

def lastTid (k : BitVec 32) : Option (BitVec 8) := (s.transactions k).map (·.lastTid)

/-! ### One transmission -/

variable {s e}

/-- All that a transmission can do. -/
inductive Outcome (s : Layer) (e : Transmission) : Prop
  | kept (unset : ¬s.Unset e) (tid : (s.entry e).tid = (s.command e).given)
      (opened : (s.entry e).opened = false) (lastTid : (s.next e).lastTid = s.lastTid)
  | continued (unset : s.Unset e) (continues : s.Continues e)
      (tid : (s.entry e).tid = (s.transaction e).lastTid) (opened : (s.entry e).opened = false)
      (lastTid : (s.next e).lastTid =
        Function.update s.lastTid (s.command e).key (some (s.transaction e).lastTid))
  | opened (unset : s.Unset e) (continues : ¬s.Continues e)
      (tid : (s.entry e).tid = (s.transaction e).lastTid + 1) (opened : (s.entry e).opened = true)
      (lastTid : (s.next e).lastTid =
        Function.update s.lastTid (s.command e).key (some ((s.transaction e).lastTid + 1)))

theorem sent_eq (s : Layer) (e : Transmission) :
    s.sent e =
      if s.Unset e then
        let r := if s.Continues e then (s.transaction e).currentTid e.now
          else (s.transaction e).nextTid e.now
        ({ (s.command e).curMeshMessage with tid := r.1 },
          Function.update s.transactions (s.command e).key (some r.2))
      else ({ (s.command e).curMeshMessage with tid := (s.command e).given }, s.transactions) := by
  rw [sent, SDKLibCommand.sendMeshMessage_eq, setTid]
  rfl

theorem entry_opened_iff : (s.entry e).opened = true ↔ s.Unset e ∧ ¬s.Continues e :=
  decide_eq_true_iff

theorem outcome (s : Layer) (e : Transmission) : Outcome s e := by
  have hsent := sent_eq s e
  have hupdate (t : SigTransaction) (h : (s.sent e).2 =
      Function.update s.transactions (s.command e).key (some t)) : (s.next e).lastTid =
        Function.update s.lastTid (s.command e).key (some t.lastTid) := by
    funext k
    show ((s.sent e).2 k).map _ = _
    rw [h]
    exact congrFun (Function.comp_update (Option.map SigTransaction.lastTid) ..) k
  by_cases hunset : s.Unset e
  · rw [if_pos hunset] at hsent
    by_cases hcontinues : s.Continues e
    · simp only [if_pos hcontinues] at hsent
      refine .continued hunset hcontinues (by rw [entry, hsent]; rfl) ?_ ?_
      · exact decide_eq_false fun h => h.2 hcontinues
      · exact hupdate ((s.transaction e).currentTid e.now).2 (congrArg Prod.snd hsent)
    · simp only [if_neg hcontinues, SigTransaction.nextTid_eq] at hsent
      refine .opened hunset hcontinues (by rw [entry, hsent]) ?_ ?_
      · exact entry_opened_iff.mpr ⟨hunset, hcontinues⟩
      · exact hupdate _ (congrArg Prod.snd hsent)
  · rw [if_neg hunset] at hsent
    refine .kept hunset (by rw [entry, hsent]) (decide_eq_false fun h => hunset h.1) ?_
    funext k
    show ((s.sent e).2 k).map _ = _
    rw [hsent]
    rfl

/-- After it, the TID of the command is the one that was sent. -/
theorem given_next_self : ((s.next e).commands e.id).given = (s.entry e).tid := by
  have hcommand : (s.next e).commands e.id =
      { s.command e with curMeshMessage := (s.sent e).1 } := Function.update_self ..
  rw [hcommand]
  by_cases hown : (s.command e).appkeyA = true ∧ (s.command e).needTid = true ∧
      (s.command e).tid ≠ 0
  · have hgiven : (s.command e).given = (s.command e).tid := if_pos hown
    cases outcome s e with
    | kept _ htid => exact (if_pos hown).trans (htid.trans hgiven).symm
    | continued hunset | opened hunset => exact absurd (hgiven.symm.trans hunset.2) hown.2.2
  · exact if_neg hown

theorem given_next_of_ne {id : ℕ} (h : id ≠ e.id) :
    ((s.next e).commands id).given = (s.commands id).given :=
  congrArg SDKLibCommand.given (Function.update_of_ne h ..)

/-! ### What keeps a TID -/

/-- The command was sent before. -/
def IsSent (s : Layer) (e : Transmission) : Prop := ∃ x ∈ s.log, x.id = e.id

/-- A command that is sent again has a TID, or gets zero again. -/
def Keeps (s : Layer) (e : Transmission) : Prop :=
  s.IsSent e → s.Unset e → (s.transaction e).lastTid = if s.Continues e then 0 else 255

theorem keeps_iff : s.Keeps e ↔ (s.IsSent e → (s.entry e).tid = (s.command e).given) := by
  refine imp_congr_right fun _ => ?_
  cases outcome s e with
  | kept hunset htid => exact iff_of_true (fun h => absurd h hunset) htid
  | continued hunset hcontinues htid =>
    rw [if_pos hcontinues, htid, hunset.2]
    exact imp_iff_right hunset
  | opened hunset hcontinues htid =>
    rw [if_neg hcontinues, htid, hunset.2]
    refine (imp_iff_right hunset).trans ⟨fun h => by rw [h]; rfl, fun h => ?_⟩
    bv_omega

/-! ### One TID for a command -/

/-- All transmissions of a command have one TID. -/
def SameTid (log : List Sent) : Prop := ∀ x ∈ log, ∀ y ∈ log, x.id = y.id → x.tid = y.tid

/-- A command that was sent has the TID it was sent with. -/
def Synced (s : Layer) : Prop := ∀ x ∈ s.log, (s.commands x.id).given = x.tid

theorem Synced.given (h : Synced s) {x : Sent} (hx : x ∈ s.log) (hid : x.id = e.id) :
    (s.command e).given = x.tid := by
  rw [command, ← hid]
  exact h x hx

theorem Synced.next (h : Synced s) (hkeeps : s.Keeps e) : Synced (s.next e) := by
  intro x hx
  rcases List.mem_append.mp hx with hx | hx
  · by_cases hid : x.id = e.id
    · have htid := keeps_iff.mp hkeeps ⟨x, hx, hid⟩
      rw [hid, given_next_self, htid, h.given hx hid]
    · rw [given_next_of_ne hid]
      exact h x hx
  · obtain rfl := List.mem_singleton.mp hx
    exact given_next_self

theorem sameTid_next_iff (hsync : Synced s) (h : SameTid s.log) :
    SameTid (s.next e).log ↔ s.Keeps e := by
  rw [keeps_iff]
  constructor
  · rintro hnext ⟨x, hx, hid⟩
    have htid := hnext x (List.mem_append_left _ hx) (s.entry e)
      (List.mem_append_right _ List.mem_cons_self) hid
    rw [hsync.given hx hid, htid]
  · intro hkeeps
    have hold : ∀ x ∈ s.log, x.id = e.id → x.tid = (s.entry e).tid := by
      intro x hx hid
      rw [hkeeps ⟨x, hx, hid⟩, hsync.given hx hid]
    intro x hx y hy hid
    rcases List.mem_append.mp hx with hx | hx <;> rcases List.mem_append.mp hy with hy | hy
    · exact h x hx y hy hid
    · obtain rfl := List.mem_singleton.mp hy
      exact hold x hx hid
    · obtain rfl := List.mem_singleton.mp hx
      exact (hold y hy hid.symm).symm
    · rw [List.mem_singleton.mp hx, List.mem_singleton.mp hy]

/-- The state after some transmissions. -/
def run (commands : ℕ → SDKLibCommand) (es : List Transmission) : Layer :=
  es.foldl next (start commands)

theorem log_grows {es p : List Transmission} (h : p <+: es) :
    (p.foldl next s).log <+: (es.foldl next s).log := by
  obtain ⟨rest, rfl⟩ := h
  rw [List.foldl_append]
  generalize p.foldl next s = t
  induction rest generalizing t with
  | nil => exact List.prefix_rfl
  | cons e rest ih => exact (List.prefix_append t.log [t.entry e]).trans (ih (t.next e))

theorem SameTid.earlier {log log' : List Sent} (h : SameTid log) (hp : log' <+: log) :
    SameTid log' := fun x hx y hy => h x (hp.subset hx) y (hp.subset hy)

theorem sameTid_iff (commands : ℕ → SDKLibCommand) (es : List Transmission) :
    SameTid (run commands es).log ↔ GoodRun next Keeps (start commands) es := by
  rw [← forall_prefix_iff_goodRun_of_kept (K := Synced) (P := fun s => SameTid s.log)
    (fun _ hx => absurd hx List.not_mem_nil) (fun _ hx => absurd hx List.not_mem_nil)
    (fun _ _ _ hsync _ hkeeps => hsync.next hkeeps)
    (fun _ _ _ hsync hsame => sameTid_next_iff hsync hsame)]
  exact ⟨fun h p hp => h.earlier (log_grows hp), fun h => h es List.prefix_rfl⟩

/-! ### A new TID for a transaction -/

/-- The first time of a message that has no TID and continues no transaction. -/
def Starts (x : Sent) : Prop := x.first = true ∧ x.opened = true

/-- Of two such messages, one after the other for one element and destination, the TIDs differ. -/
def NewTids (log : List Sent) : Prop :=
  ∀ before a between b after, log = before ++ a :: between ++ b :: after → Starts a → Starts b →
    a.element = b.element → a.destination = b.destination →
      (∀ x ∈ between, x.element = a.element → x.destination = a.destination → ¬Starts x) →
        a.tid ≠ b.tid

/-- The counter is where the last message left it that started a transaction, or has gone on from
there to zero. -/
def Newest (s : Layer) : Prop :=
  ∀ before a after, s.log = before ++ a :: after → Starts a →
    (∀ x ∈ after, x.element = a.element → x.destination = a.destination → ¬Starts x) →
      s.lastTid a.key = some a.tid ∨ a.tid = 255 ∧ s.lastTid a.key = some 0

theorem entry_first_iff : (s.entry e).first = true ↔ ¬s.IsSent e := by
  simp [entry, IsSent]

theorem lastTid_eq {v : BitVec 8} (h : s.lastTid (s.command e).key = some v) :
    (s.transaction e).lastTid = v := by
  obtain ⟨t, ht, rfl⟩ := Option.map_eq_some_iff.mp h
  rw [transaction, ht]
  rfl

theorem NewTids.next (h : NewTids s.log) (hnewest : Newest s) : NewTids (s.next e).log := by
  intro before a between b after heq ha hb helement hdestination hbetween
  rcases split_snoc heq with ⟨hlog, rfl, -⟩ | ⟨after', -, hlog⟩
  · have hlast := hnewest before a between hlog.symm ha hbetween
    rw [Sent.key, helement, hdestination] at hlast
    cases outcome s e with
    | kept _ _ hopened | continued _ _ _ hopened =>
      exact absurd (hopened.symm.trans hb.2) Bool.false_ne_true
    | opened _ _ htid =>
      rw [htid]
      rcases hlast with hlast | ⟨hmax, hlast⟩
      · rw [lastTid_eq hlast]
        bv_omega
      · rw [lastTid_eq hlast, hmax]
        decide
  · exact h before a between b after' hlog ha hb helement hdestination hbetween

theorem Newest.next (h : Newest s) (hkeeps : s.Keeps e) : Newest (s.next e) := by
  intro before a after heq ha hafter
  rcases split_snoc heq with ⟨-, rfl, -⟩ | ⟨after', rfl, hlog⟩
  · cases outcome s e with
    | kept _ _ hopened | continued _ _ _ hopened =>
      exact absurd (hopened.symm.trans ha.2) Bool.false_ne_true
    | opened _ _ htid _ hlast =>
      refine Or.inl ?_
      rw [hlast, htid]
      exact Function.update_self ..
  · have hlast := h before a after' hlog ha fun x hx => hafter x (List.mem_append_left _ hx)
    have hnot := hafter (s.entry e) (List.mem_append_right _ List.mem_cons_self)
    cases outcome s e with
    | kept _ _ _ hkept => rwa [hkept]
    | continued _ _ _ _ hnext =>
      rw [hnext]
      by_cases hkey : (s.command e).key = a.key
      · rw [← hkey] at hlast ⊢
        rw [Function.update_self]
        rcases hlast with hlast | ⟨hmax, hlast⟩
        · exact Or.inl (congrArg some (lastTid_eq hlast))
        · exact Or.inr ⟨hmax, congrArg some (lastTid_eq hlast)⟩
      · rwa [Function.update_of_ne (Ne.symm hkey)]
    | opened hunset hcontinues _ hopened hnext =>
      rw [hnext]
      by_cases hkey : (s.command e).key = a.key
      · -- Only a message that was sent before, and finds the counter at its end.
        have hsent : s.IsSent e := by
          by_contra hfirst
          obtain ⟨helement, hdestination⟩ := getKeyForElement_inj.mp hkey
          exact hnot helement hdestination ⟨entry_first_iff.mpr hfirst, hopened⟩
        have hend : (s.transaction e).lastTid = 255 := by
          rw [hkeeps hsent hunset, if_neg hcontinues]
        rw [← hkey] at hlast ⊢
        rw [Function.update_self, hend]
        rcases hlast with hlast | ⟨-, hlast⟩
        · exact Or.inr ⟨(lastTid_eq hlast).symm.trans hend, rfl⟩
        · exact absurd ((lastTid_eq hlast).symm.trans hend) (by decide)
      · rwa [Function.update_of_ne (Ne.symm hkey)]

theorem newTids_of_goodRun {commands : ℕ → SDKLibCommand} {es : List Transmission}
    (h : GoodRun next Keeps (start commands) es) : NewTids (run commands es).log := by
  have hnone {before after : List Sent} {a : Sent} : [] ≠ before ++ a :: after := fun heq =>
    List.append_ne_nil_of_right_ne_nil before (List.cons_ne_nil a after) heq.symm
  refine (h.inv (P := fun s => NewTids s.log ∧ Newest s) ⟨?_, ?_⟩ ?_).1
  · exact fun before a between b after heq => absurd heq hnone
  · exact fun before a after heq => absurd heq hnone
  · exact fun s e hs hkeeps => ⟨hs.1.next hs.2, hs.2.next hkeeps⟩

/-- The TIDs are right exactly if no message gets another TID than zero when it is sent again
with none. -/
theorem tids_iff (commands : ℕ → SDKLibCommand) (es : List Transmission) :
    SameTid (run commands es).log ∧ NewTids (run commands es).log ↔
      GoodRun next Keeps (start commands) es := by
  rw [sameTid_iff]
  exact and_iff_left_of_imp newTids_of_goodRun

/-- A message to switch on, with nothing special. -/
def onOffSet : SDKLibCommand := ⟨⟨true, false, 0⟩, 1, 2, true, false, 0⟩

/-- The counter starts at its end, and the message is sent twice. -/
theorem tids_refuted : ¬ ∀ (commands : ℕ → SDKLibCommand) (es : List Transmission),
    SameTid (run commands es).log ∧ NewTids (run commands es).log := by
  intro h
  have hlog : (run (fun _ => onOffSet) [⟨0, 0, 255⟩, ⟨0, 1000, 0⟩]).log =
      [⟨0, 1, 2, 0, true, true⟩, ⟨0, 1, 2, 1, false, true⟩] := by decide
  have hsame := (h (fun _ => onOffSet) [⟨0, 0, 255⟩, ⟨0, 1000, 0⟩]).1
  rw [hlog] at hsame
  have htid := hsame _ List.mem_cons_self _ (List.mem_cons_of_mem _ List.mem_cons_self) rfl
  exact absurd htid (by decide)

end Layer

end PirMesh.AccessLayer
