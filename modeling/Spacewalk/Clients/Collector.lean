import Spacewalk.Clients.Horizon
import Spacewalk.Clients.SlotMaps
import Spacewalk.Runtime.Replay

/-!
# The collector of SCP messages

A vault proves a Stellar payment with the externalizing envelopes of its slot and with the
transaction set of the slot.  The collector (`clients/vault/src/oracle/collector`) gathers both from
the overlay network.  Envelopes carry their slot, but a transaction set does not: when the first
envelope with a hash arrives, the collector asks for the set and saves the slot under the hash, and
when the set arrives it is stored under that slot.

A message may fail to be sent, and an envelope may be too short to hold a hash, which panics.  What
the handlers have written until then stays.  The files of a history archive are a parameter
(`HistoryArchive`), and so is the constructor of the array in a proof.

However messages and proofs are interleaved, a proof consists of parts of its slot
(`proof_sourced`).
-/

namespace Spacewalk.Clients

open Stellar

abbrev TxSetHash := Hash

/-! ## The collector -/

inductive ScpHistoryEntry where
  | v0 (ledgerSeq : Nat) (messages : List ScpEnvelope)
  | default

/-- An entry of an archive of transactions: its set, and the generalized set of an extended entry. -/
structure TransactionHistoryEntry where
  ledgerSeq : Nat
  txSet : TransactionSetType
  generalizedTxSet : Option TransactionSetType

/-- What the files of a history archive hold, if they can be fetched. -/
structure HistoryArchive where
  scpArchive : Slot → Option (List ScpHistoryEntry)
  transactionsArchive : Slot → Option (List TransactionHistoryEntry)

inductive StellarMessage where
  | getTxSet (hash : TxSetHash)
  | getScpState (slot : Slot)
  deriving DecidableEq

/-- The ways in which an envelope cannot be handled. -/
inductive OracleError where
  | sendFailed
  | panic
  deriving DecidableEq

/-- Collects SCP messages and transaction sets. -/
structure ScpMessageCollector where
  envelopesMap : LimitedFifoMap Slot (List ScpEnvelope)
  /-- The slots whose envelopes were taken from an archive. -/
  envFromArchiveMap : LimitedFifoMap Slot Unit
  txsetMap : LimitedFifoMap Slot TransactionSetType
  /-- The slots whose transaction sets are awaited, with their hashes. -/
  txsetAndSlotMap : DoubleSidedHashMap TxSetHash Slot
  lastSlotIndex : Slot
  publicNetwork : Bool
  /-- The archives that the configured addresses lead to. -/
  stellarHistoryArchives : List HistoryArchive

/-- The hash of the transaction set in a value that SCP agreed on: its first 32 bytes.  Slicing a
shorter value panics. -/
def txSetHashOf (value : Value) : Except OracleError TxSetHash :=
  if 32 ≤ value.length then
    .ok (BitVec.ofNat 256 ((value.take 32).foldl (fun n byte => n * 256 + byte.toNat) 0))
  else .error .panic

variable (publicNetwork : Bool) (env : ScpEnvelope) (archives : List HistoryArchive)

namespace ScpMessageCollector

/-- A collector that has received nothing. -/
def new : ScpMessageCollector where
  envelopesMap := .new
  envFromArchiveMap := .new
  txsetMap := .new
  txsetAndSlotMap := .new
  lastSlotIndex := 0
  publicNetwork := publicNetwork
  stellarHistoryArchives := archives

/-- A collector that has received nothing, with another limit. -/
def newWithSizeLimit (sizeLimit : ℕ) :
    ScpMessageCollector where
  envelopesMap := LimitedFifoMap.new.withLimit sizeLimit
  envFromArchiveMap := LimitedFifoMap.new.withLimit sizeLimit
  txsetMap := LimitedFifoMap.new.withLimit sizeLimit
  txsetAndSlotMap := .new
  lastSlotIndex := 0
  publicNetwork := publicNetwork
  stellarHistoryArchives := archives

variable (c : ScpMessageCollector) (txsetHash : TxSetHash) (slot : Slot)

/-- Add an envelope to those of its slot. -/
def addScpEnvelope (scpEnvelope : ScpEnvelope) : ScpMessageCollector :=
  match c.envelopesMap.get slot with
  | some value => { c with envelopesMap := (c.envelopesMap.insert slot (value ++ [scpEnvelope])).2 }
  | none => { c with envelopesMap := (c.envelopesMap.insert slot [scpEnvelope]).2 }

/-- Save the slot of an awaited transaction set. -/
def saveTxsetHashAndSlot : ScpMessageCollector :=
  { c with txsetAndSlotMap := c.txsetAndSlotMap.insert txsetHash slot }

def setLastSlotIndex : ScpMessageCollector :=
  if slot > c.lastSlotIndex then { c with lastSlotIndex := slot } else c

/-- Forget the envelopes and the transaction set of a slot. -/
def removeData : ScpMessageCollector :=
  { c with
    envelopesMap := (c.envelopesMap.remove slot).2
    envFromArchiveMap := (c.envFromArchiveMap.remove slot).2
    txsetMap := (c.txsetMap.remove slot).2 }

/-- The transaction set is neither awaited nor stored for the slot. -/
def isTxsetNew : Bool :=
  (c.txsetAndSlotMap.kToVMap txsetHash).isNone && !c.txsetMap.contains slot

/-- Store a transaction set for the slot that awaits it.  Returns whether there is one. -/
def addTxset (lib : StellarLib) (txSet : TransactionSetType) : Bool × ScpMessageCollector :=
  match lib.getTxSetHash txSet with
  | none => (false, c)
  | some hash =>
    match c.txsetAndSlotMap.removeByTxsetHash hash with
    | (some slot, waiting) =>
      (true, { c with txsetAndSlotMap := waiting, txsetMap := (c.txsetMap.insert slot txSet).2 })
    | (none, waiting) => (false, { c with txsetAndSlotMap := waiting })

/-- Handle an incoming envelope.  Returns the slot if the envelope is saved, and the messages to the
node, which are sent if the channel is open. -/
def handleEnvelope (env : ScpEnvelope) (isOpen : Bool) :
    Except OracleError (Option Slot) × ScpMessageCollector × List StellarMessage :=
  let slot := env.statement.slotIndex
  match env.statement.pledges with
  | .scpStExternalize commitValue _ _ =>
    let c := c.setLastSlotIndex slot
    match txSetHashOf commitValue with
    | .error e => (.error e, c, [])
    | .ok txsetHash =>
      if c.isTxsetNew txsetHash slot then
        if isOpen then
          (.ok (some slot), (c.saveTxsetHashAndSlot txsetHash slot).addScpEnvelope slot env,
            [.getTxSet txsetHash])
        else (.error .sendFailed, c, [])
      else (.ok (some slot), c.addScpEnvelope slot env, [])
  | _ => (.ok none, c.removeData slot, [])

end ScpMessageCollector

/-- What arrives from the overlay network: an SCP envelope, while the channel to the node is open or
closed, or a transaction set. -/
inductive Incoming where
  | scpMessage (env : ScpEnvelope) (isOpen : Bool)
  | txSet (set : TransactionSetType)
  deriving DecidableEq

/-- Handle what arrives. -/
def ScpMessageCollector.receive (lib : StellarLib) (c : ScpMessageCollector) :
    Incoming → ScpMessageCollector
  | .scpMessage env isOpen => (c.handleEnvelope env isOpen).2.1
  | .txSet set => (c.addTxset lib set).2

/-! ## Proofs -/

def validatorCountTestNetwork : ℕ := 3

def validatorCountPublicNetwork : ℕ := 23

/-- The number of slots that a node remembers. -/
def maxSlotsToRemember : Slot := 12

/-- The number of envelopes that are required for a proof. -/
def getMinExternalizedMessages : ℕ :=
  (if publicNetwork then validatorCountPublicNetwork else validatorCountTestNetwork) * 2 / 3

/-- The proof of the transactions of a slot. -/
structure Proof where
  slot : Slot
  envelopes : List ScpEnvelope
  txSet : TransactionSetType

/-- The node still remembers a slot. -/
def checkSlotStillRecoverableFromOverlay (lastSlotIndex slot : Slot) : Bool :=
  lastSlotIndex ≠ 0 && slot > lastSlotIndex - maxSlotsToRemember

def isExternalize : Bool :=
  match env.statement.pledges with
  | .scpStExternalize _ _ _ => true
  | _ => false

def isConfirm : Bool :=
  match env.statement.pledges with
  | .scpStConfirm _ _ _ => true
  | _ => false

/-- The envelopes of a slot in an archive, if some of them externalize. -/
def relevantEnvelopes (slot : Slot) (archive : HistoryArchive) : Option (List ScpEnvelope) := do
  let entries ← archive.scpArchive slot
  let messages ← entries.findSome? fun
    | .v0 ledgerSeq messages => if ledgerSeq = slot then some messages else none
    | .default => none
  let relevant := messages.filter fun env => isExternalize env || isConfirm env
  if relevant.any isExternalize then some relevant else none

def archivedTxset (slot : Slot) (archive : HistoryArchive) : Option TransactionSetType := do
  let entries ← archive.transactionsArchive slot
  let entry ← entries.find? fun entry => entry.ledgerSeq = slot
  return entry.generalizedTxSet.getD entry.txSet

namespace ScpMessageCollector

variable (c : ScpMessageCollector) (slot : Slot) (isOpen : Bool)

/-- Take the envelopes of a slot from the first archive that has them. -/
def getEnvelopesFromHorizonArchive : ScpMessageCollector :=
  match c.stellarHistoryArchives.findSome? (relevantEnvelopes slot) with
  | some envelopes =>
    { c with
      envelopesMap := (c.envelopesMap.insert slot envelopes).2
      envFromArchiveMap := (c.envFromArchiveMap.insert slot ()).2 }
  | none => c

/-- Take the transaction set of a slot from the first archive that has it. -/
def getTxsetFromHorizonArchive : ScpMessageCollector :=
  match c.stellarHistoryArchives.findSome? (archivedTxset slot) with
  | some txSet => { c with txsetMap := (c.txsetMap.insert slot txSet).2 }
  | none => c

variable (newArray : List ScpEnvelope → Option (List ScpEnvelope))

/-- The envelopes of a slot, if there are enough of them.  Otherwise they are asked for.  `newArray`
is the constructor of the array of envelopes, which can fail. -/
def getEnvelopes : Option (List ScpEnvelope) × ScpMessageCollector × List StellarMessage :=
  match c.envelopesMap.get slot with
  | some envelopes =>
    if !c.envFromArchiveMap.contains slot &&
        envelopes.length < getMinExternalizedMessages c.publicNetwork then ask
    else (newArray envelopes, c, [])
  | none => ask
where
  /-- Ask the node if it still remembers the slot, or else the archives. -/
  ask : Option (List ScpEnvelope) × ScpMessageCollector × List StellarMessage :=
    if checkSlotStillRecoverableFromOverlay c.lastSlotIndex slot then
      (none, c, if slot < 2 ^ 32 ∧ isOpen then [.getScpState slot] else [])
    else (none, c.getEnvelopesFromHorizonArchive slot, [])

/-- The transaction set of a slot.  If there is none, it is asked for. -/
def getTxset : Option TransactionSetType × ScpMessageCollector × List StellarMessage :=
  match c.txsetMap.get slot with
  | some txSet => (some txSet, c, [])
  | none =>
    if checkSlotStillRecoverableFromOverlay c.lastSlotIndex slot then
      match c.txsetAndSlotMap.vToKMap slot with
      | some txsetHash => (none, c, if isOpen then [.getTxSet txsetHash] else [])
      | none => (none, c, [])
    else (none, c.getTxsetFromHorizonArchive slot, [])

/-- Build the proof of a slot.  Returns it if all parts are there, and the messages to the node. -/
def buildProof : Option Proof × ScpMessageCollector × List StellarMessage :=
  if c.lastSlotIndex = 0 then (none, c, [])
  else
    match c.getEnvelopes slot isOpen newArray with
    | (none, c, messages) => (none, c, messages)
    | (some envelopes, c, messages) =>
      match c.getTxset slot isOpen with
      | (some txSet, c, messages') => (some ⟨slot, envelopes, txSet⟩, c, messages ++ messages')
      | (none, c, messages') => (none, c, messages ++ messages')

end ScpMessageCollector

/-! ## The provenance of proofs -/

/-- What happens to a collector. -/
inductive Activity where
  | receives (incoming : Incoming)
  | buildsProof (slot : Slot) (isOpen : Bool)

/-- What a collector is made of, and what happened to it. -/
structure History where
  lib : StellarLib
  newArray : List ScpEnvelope → Option (List ScpEnvelope)
  archives : List HistoryArchive
  publicNetwork : Bool
  sizeLimit : ℕ
  activities : List Activity

namespace History

open ScpMessageCollector Function

variable (H : History)

/-- The collector after an activity. -/
def perform (c : ScpMessageCollector) : Activity → ScpMessageCollector
  | .receives incoming => c.receive H.lib incoming
  | .buildsProof slot isOpen => (c.buildProof slot isOpen H.newArray).2.1

/-- The collector after all activities. -/
def collector : ScpMessageCollector :=
  H.activities.foldl H.perform (newWithSizeLimit H.publicNetwork H.archives H.sizeLimit)

/-- An envelope was received that externalizes the hash of a transaction set for the slot. -/
def Announced (slot : Slot) (hash : TxSetHash) (env : ScpEnvelope) : Prop :=
  (∃ isOpen, .receives (.scpMessage env isOpen) ∈ H.activities) ∧ env.statement.slotIndex = slot ∧
    ∃ value nH remainder, env.statement.pledges = .scpStExternalize value nH remainder ∧
      txSetHashOf value = .ok hash

/-- An envelope was received for the slot, or an archive has it among those of the slot. -/
def EnvelopeOf (slot : Slot) (env : ScpEnvelope) : Prop :=
  (∃ hash, H.Announced slot hash env) ∨
    ∃ archive ∈ H.archives, ∃ envelopes ∈ relevantEnvelopes slot archive, env ∈ envelopes

/-- A transaction set was received whose hash is externalized for the slot, or an archive has it for
the slot. -/
def TxsetOf (slot : Slot) (txSet : TransactionSetType) : Prop :=
  (.receives (.txSet txSet) ∈ H.activities ∧
      ∃ hash ∈ H.lib.getTxSetHash txSet, ∃ env, H.Announced slot hash env) ∨
    ∃ archive ∈ H.archives, archivedTxset slot archive = some txSet

/-- What a collector holds for a slot belongs to the slot. -/
structure Sourced (c : ScpMessageCollector) : Prop where
  archives : c.stellarHistoryArchives = H.archives
  envelopes : c.envelopesMap.All fun slot envelopes => ∀ env ∈ envelopes, H.EnvelopeOf slot env
  txsets : c.txsetMap.All H.TxsetOf
  awaited : ∀ hash slot, c.txsetAndSlotMap.kToVMap hash = some slot →
    ∃ env, H.Announced slot hash env

variable {H} {c : ScpMessageCollector} {slot : Slot} {env : ScpEnvelope} {isOpen : Bool}
  {txSet : TransactionSetType} {proof : Proof}

theorem addScpEnvelope_sourced (h : H.Sourced c) (henv : H.EnvelopeOf slot env) :
    H.Sourced (c.addScpEnvelope slot env) := by
  rw [addScpEnvelope]
  cases hget : c.envelopesMap.get slot with
  | none => exact { h with envelopes := h.envelopes.insert (by simpa using henv) }
  | some value =>
    have hold := h.envelopes _ (LimitedFifoMap.mem_of_get hget)
    exact { h with envelopes := h.envelopes.insert (by simpa [or_imp, forall_and] using ⟨hold, henv⟩) }

theorem handleEnvelope_sourced (h : H.Sourced c)
    (hin : .receives (.scpMessage env isOpen) ∈ H.activities) :
    H.Sourced (c.handleEnvelope env isOpen).2.1 := by
  cases hp : env.statement.pledges with
  | scpStExternalize value nH remainder =>
    have hlast : H.Sourced (c.setLastSlotIndex env.statement.slotIndex) := by
      rw [setLastSlotIndex]
      split_ifs
      · exact { h with }
      · exact h
    rcases hhash : txSetHashOf value with e | hash <;> simp only [handleEnvelope, hp, hhash]
    · exact hlast
    · have hann : H.Announced env.statement.slotIndex hash env :=
        ⟨⟨isOpen, hin⟩, rfl, value, nH, remainder, hp, hhash⟩
      split_ifs
      · refine addScpEnvelope_sourced { hlast with awaited := fun other slot hother => ?_ }
          (.inl ⟨hash, hann⟩)
        -- only the hash of this envelope is new, and it is saved with the slot of the envelope
        change update _ hash _ other = _ at hother
        rw [update_apply] at hother
        split_ifs at hother with heq
        · obtain rfl := Option.some.inj hother
          exact heq ▸ ⟨env, hann⟩
        · exact hlast.awaited other slot hother
      · exact hlast
      · exact addScpEnvelope_sourced hlast (.inl ⟨hash, hann⟩)
  | _ =>
    simp only [handleEnvelope, hp]
    exact { h with envelopes := h.envelopes.remove, txsets := h.txsets.remove }

theorem addTxset_sourced (h : H.Sourced c) (hin : .receives (.txSet txSet) ∈ H.activities) :
    H.Sourced (c.addTxset H.lib txSet).2 := by
  rcases hhash : H.lib.getTxSetHash txSet with _ | hash <;> simp only [addTxset, hhash]
  · exact h
  · obtain ⟨hfound, hleft⟩ : (∀ slot, (c.txsetAndSlotMap.removeByTxsetHash hash).1 = some slot →
          c.txsetAndSlotMap.kToVMap hash = some slot) ∧
        ∀ other slot, (c.txsetAndSlotMap.removeByTxsetHash hash).2.kToVMap other = some slot →
          c.txsetAndSlotMap.kToVMap other = some slot := by
      rw [DoubleSidedHashMap.removeByTxsetHash]
      cases c.txsetAndSlotMap.kToVMap hash <;> simp +contextual [update_apply]
    -- the set goes to the slot that was saved with its hash; the others are still awaited
    have hawaited other slot hother := h.awaited other slot (hleft other slot hother)
    split <;> rename_i hr <;> rw [hr] at hfound hawaited
    · have hset : H.TxsetOf _ txSet := .inl ⟨hin, hash, hhash, h.awaited hash _ (hfound _ rfl)⟩
      exact { h with txsets := h.txsets.insert hset, awaited := hawaited }
    · exact { h with awaited := hawaited }

/-- Building a proof leaves the collector as it is, or takes missing parts from an archive. -/
theorem buildProof_sourced (h : H.Sourced c) :
    H.Sourced (c.buildProof slot isOpen H.newArray).2.1 := by
  have henvelopes : H.Sourced (c.getEnvelopesFromHorizonArchive slot) := by
    rw [getEnvelopesFromHorizonArchive]
    split
    next envelopes hfound =>
      obtain ⟨archive, hin, hrelevant⟩ := List.exists_of_findSome?_eq_some hfound
      refine { h with envelopes := h.envelopes.insert fun env henv => .inr ?_ }
      exact ⟨archive, h.archives ▸ hin, envelopes, hrelevant, henv⟩
    next => exact h
  have htxset {c} (h : H.Sourced c) : H.Sourced (c.getTxsetFromHorizonArchive slot) := by
    rw [getTxsetFromHorizonArchive]
    split
    next txSet hfound =>
      obtain ⟨archive, hin, hset⟩ := List.exists_of_findSome?_eq_some hfound
      exact { h with txsets := h.txsets.insert (.inr ⟨archive, h.archives ▸ hin, hset⟩) }
    next => exact h
  simp only [buildProof, getEnvelopes, getEnvelopes.ask, getTxset]
  grind

theorem collector_sourced (H : History) : H.Sourced H.collector := by
  have hempty {V : Type} {P : Slot → V → Prop} : (LimitedFifoMap.new.withLimit H.sizeLimit).All P := by
    rw [LimitedFifoMap.withLimit_eq]
    exact fun _ => nofun
  -- every activity that the fold performs belongs to the history
  refine List.foldlRecOn _ _ ⟨rfl, hempty, hempty, fun _ _ => nofun⟩ fun c h activity hin => ?_
  cases activity with
  | receives incoming =>
    cases incoming with
    | scpMessage env isOpen => exact handleEnvelope_sourced h hin
    | txSet txSet => exact addTxset_sourced h hin
  | buildsProof slot isOpen => exact buildProof_sourced h

/-- A proof consists of what the collector holds for the slot. -/
theorem buildProof_eq_some (h : (c.buildProof slot isOpen H.newArray).1 = some proof) :
    proof.slot = slot ∧ c.txsetMap.get slot = some proof.txSet ∧
      ∃ envelopes, c.envelopesMap.get slot = some envelopes ∧
        H.newArray envelopes = some proof.envelopes ∧ (c.envFromArchiveMap.contains slot ∨
          getMinExternalizedMessages c.publicNetwork ≤ envelopes.length) := by
  simp only [buildProof, getEnvelopes, getEnvelopes.ask, getTxset] at h
  grind

/-- Whatever was received and built before, a proof consists of envelopes and of a transaction set of
its slot. -/
theorem proof_sourced (H : History) (slot : Slot) (isOpen : Bool) (proof : Proof)
    (h : (H.collector.buildProof slot isOpen H.newArray).1 = some proof) :
    proof.slot = slot ∧ H.TxsetOf slot proof.txSet ∧
      ∃ envelopes, H.newArray envelopes = some proof.envelopes ∧
        (∀ env ∈ envelopes, H.EnvelopeOf slot env) ∧
        (H.collector.envFromArchiveMap.contains slot ∨
          getMinExternalizedMessages H.collector.publicNetwork ≤ envelopes.length) := by
  obtain ⟨hslot, hset, envelopes, hget, hnew, hmany⟩ := buildProof_eq_some h
  have hs := H.collector_sourced
  exact ⟨hslot, hs.txsets _ (LimitedFifoMap.mem_of_get hset), envelopes, hnew,
    hs.envelopes _ (LimitedFifoMap.mem_of_get hget), hmany⟩

/-- Two envelopes and a transaction set were received on the test network. -/
def gathering : History where
  lib := sampleStellar
  newArray := some
  archives := []
  publicNetwork := false
  sizeLimit := 0
  activities :=
    let env : ScpEnvelope := ⟨⟨0, 5, .scpStExternalize (List.replicate 32 0) 0 []⟩, []⟩
    [.receives (.scpMessage env true), .receives (.scpMessage env true), .receives (.txSet ⟨[], []⟩)]

theorem proof_sourced_gathering :
    ∃ proof, (gathering.collector.buildProof 5 true some).1 = some proof ∧
      gathering.TxsetOf 5 proof.txSet :=
  ⟨_, rfl, (proof_sourced gathering 5 true _ rfl).2.1⟩

end History

end Spacewalk.Clients
