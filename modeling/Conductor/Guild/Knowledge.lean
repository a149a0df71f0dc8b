/-
The failure knowledge base: what it does with its store when task outcomes are
published, and the machine on which it runs.
-/
import Conductor.Effects.Invariant
import Conductor.Guild.Store

namespace Conductor

open Effects Block

/-- The calls of the knowledge base: the clock, and its store. -/
inductive GuildCall where
  | now
  | get (fingerprint : FailureFingerprint)
  | save (record : GuildRecord)
  | list (q : GuildQuery)
  | delete (fingerprint : FailureFingerprint)

/-- What a call gives back when it does not raise. -/
abbrev GuildResponse : GuildCall → Type
  | .now => Time
  | .get _ => Option GuildRecord
  | .save _ => Unit
  | .list _ => List GuildRecord
  | .delete _ => Bool

abbrev GuildAnswer := Reply GuildResponse PyExc

abbrev GuildHistory := History GuildCall GuildAnswer

/-- Statements of the knowledge base. -/
abbrev GuildBlock := Block GuildCall GuildResponse PyExc Unit

/-- Make one of the knowledge base's calls. -/
def askGuild (c : GuildCall) : GuildBlock (GuildResponse c) := Block.perform c

/-- Configuration for guild participation. -/
structure GuildConfig where
  enabled : Bool
  projectName : Option String
  maxRecords : Int

/-- The knowledge base; the digest function is that of the standard library. -/
structure FailureKnowledgeBase where
  config : GuildConfig
  sha256Hex : String → String

/-- The arguments of `publish`. -/
structure Publication where
  capability : String
  failureContexts : List FailureContext
  role : Option String
  resolutionHint : Option String
  approachAdjustment : Option Dict
  metadata : Option Dict

/-- The arguments of `publish_success`. -/
structure SuccessReport where
  capability : String
  inputData : Dict
  role : Option String
  metadata : Option Dict

/-- The keys that a call of `publish` has seen, and the records it returns. -/
structure Batch where
  seen : List String
  published : List GuildRecord

namespace FailureKnowledgeBase

variable (kb : FailureKnowledgeBase)

/-- `_compute_input_fingerprint({})`. -/
def emptyInput : String := String.ofList ((kb.sha256Hex "\x7b\x7d").toList.take 16)

/-- The fingerprint of a failure context. -/
def fingerprintOf (capability : String) (ctx : FailureContext) : FailureFingerprint where
  capability := orText (some capability) ctx.capability
  errorType := ctx.errorType
  inputFingerprint := orText ctx.inputFingerprint kb.emptyInput

/-- One more failure on a record that was published before in the call. -/
def again (record : GuildRecord) (now : Time) : GuildRecord :=
  { record with failureCount := record.failureCount + 1, updatedAt := now }

/-- Each published copy with the key is counted once more and saved. -/
def countAgain (key : String) : List GuildRecord → GuildBlock (List GuildRecord)
  | [] => pure []
  | record :: rest =>
      if record.key = key then do
        let now ← askGuild .now
        askGuild (.save (again record now))
        let rest ← countAgain key rest
        return again record now :: rest
      else do
        let rest ← countAgain key rest
        return record :: rest

theorem countAgain_absent {key : String} {published : List GuildRecord}
    (habsent : key ∉ published.map (·.key)) : countAgain key published = pure published := by
  induction published with
  | nil => rfl
  | cons record rest ih =>
      rw [List.map_cons, List.mem_cons, not_or] at habsent
      rw [countAgain, if_neg (Ne.symm habsent.1), ih habsent.2]
      rfl

/-- The copies with the key counted once more. -/
def counted (key : String) (now : Time) (published : List GuildRecord) : List GuildRecord :=
  published.map fun record => if record.key = key then again record now else record

theorem keys_counted (key : String) (now : Time) (published : List GuildRecord) :
    (counted key now published).map (·.key) = published.map (·.key) := by
  rw [counted, List.map_map]
  refine List.map_congr_left fun record _ => ?_
  rw [Function.comp_apply]
  split <;> rfl

theorem counted_absent {key : String} {now : Time} {published : List GuildRecord}
    (habsent : key ∉ published.map (·.key)) : counted key now published = published := by
  refine (List.map_congr_left fun record hrecord => ?_).trans (List.map_id published)
  have hne : record.key ≠ key := by
    intro heq
    exact habsent (heq ▸ List.mem_map_of_mem hrecord)
  rw [if_neg hne, id]

/-- Of copies with distinct keys, the one that has the key is saved. -/
theorem countAgain_eq {published : List GuildRecord} {old : GuildRecord} (hmem : old ∈ published)
    (hnodup : (published.map (·.key)).Nodup) :
    countAgain old.key published = do
      let now ← askGuild .now
      askGuild (.save (again old now))
      return counted old.key now published := by
  induction published with
  | nil => cases hmem
  | cons record rest ih =>
      rw [List.map_cons, List.nodup_cons] at hnodup
      by_cases hrecord : record.key = old.key
      · obtain rfl : old = record := by
          rcases List.mem_cons.mp hmem with heq | hrest
          · exact heq
          · have hagain : old.key ∈ rest.map (·.key) := List.mem_map_of_mem hrest
            rw [← hrecord] at hagain
            exact absurd hagain hnodup.1
        have hcounted (now : Time) : counted old.key now (old :: rest) = again old now :: rest := by
          have hrest : counted old.key now rest = rest := counted_absent hnodup.1
          rw [counted, List.map_cons, if_pos rfl]
          exact congrArg _ hrest
        rw [countAgain, if_pos rfl, countAgain_absent hnodup.1]
        simp only [hcounted]
        rfl
      · have hrest : old ∈ rest := by
          rcases List.mem_cons.mp hmem with heq | hrest
          · exact absurd (congrArg GuildRecord.key heq.symm) hrecord
          · exact hrest
        have hcounted (now : Time) : counted old.key now (record :: rest) =
            record :: counted old.key now rest := by
          rw [counted, List.map_cons, if_neg hrecord]
          rfl
        rw [countAgain, if_neg hrecord, ih hrest hnodup.2, Block.bind_assoc]
        simp only [hcounted, Block.bind_assoc]
        rfl

/-- Update the record of a fingerprint or create it, and save it. -/
def upsert (fingerprint : FailureFingerprint) (update : GuildRecord → Time → GuildRecord)
    (create : Time → Time → GuildRecord) : GuildBlock GuildRecord := do
  match ← askGuild (.get fingerprint) with
  | some existing =>
      let now ← askGuild .now
      askGuild (.save (update existing now))
      return update existing now
  | none =>
      let createdAt ← askGuild .now
      let updatedAt ← askGuild .now
      askGuild (.save (create createdAt updatedAt))
      return create createdAt updatedAt

/-- An existing record with one more failure, and what the call says of it. -/
def renewed (pub : Publication) (existing : GuildRecord) (now : Time) : GuildRecord :=
  { existing with
    failureCount := existing.failureCount + 1
    updatedAt := now
    resolutionHint := pub.resolutionHint.or existing.resolutionHint
    approachAdjustment :=
      match pub.approachAdjustment with
      | some adjustment => Dict.update existing.approachAdjustment adjustment
      | none => existing.approachAdjustment
    role := pub.role.or existing.role
    project := kb.config.projectName.or existing.project }

/-- The record of a failure that was not known. -/
def created (pub : Publication) (fingerprint : FailureFingerprint) (createdAt updatedAt : Time) :
    GuildRecord where
  fingerprint := fingerprint
  resolutionHint := pub.resolutionHint
  approachAdjustment := pub.approachAdjustment.getD []
  role := pub.role
  project := kb.config.projectName
  successCount := 0
  failureCount := 1
  createdAt := createdAt
  updatedAt := updatedAt
  metadata := pub.metadata.getD []

/-- The first context of the call with its key. -/
def publishFirst (pub : Publication) (fingerprint : FailureFingerprint) :
    GuildBlock GuildRecord :=
  upsert fingerprint (kb.renewed pub) (kb.created pub fingerprint)

/-- One turn of the loop over the failure contexts. -/
def publishContext (pub : Publication) (ctx : FailureContext) (batch : Batch) :
    GuildBlock Batch :=
  let fingerprint := kb.fingerprintOf pub.capability ctx
  if fingerprint.toKey ∈ batch.seen then do
    let published ← countAgain fingerprint.toKey batch.published
    return ⟨batch.seen, published⟩
  else do
    let record ← kb.publishFirst pub fingerprint
    return ⟨fingerprint.toKey :: batch.seen, batch.published ++ [record]⟩

def publishContexts (pub : Publication) : List FailureContext → Batch → GuildBlock Batch
  | [], batch => pure batch
  | ctx :: rest, batch => do
      let batch ← kb.publishContext pub ctx batch
      publishContexts pub rest batch

def deleteAll : List GuildRecord → GuildBlock Unit
  | [] => pure ()
  | record :: rest => do
      let _ ← askGuild (.delete record.fingerprint)
      deleteAll rest

/-- Trim the oldest records when the store exceeds `max_records`. -/
def enforceLimit : GuildBlock Unit :=
  if kb.config.maxRecords ≤ 0 then pure ()
  else do
    let records ← askGuild (.list .all)
    if records.length ≤ kb.config.maxRecords then return ()
    else
      let sorted := records.insertionSort fun r r' => r.createdAt ≤ r'.createdAt
      deleteAll (sorted.take (sorted.length - kb.config.maxRecords.toNat))

def publish (pub : Publication) : GuildBlock (List GuildRecord) :=
  if kb.config.enabled then do
    let batch ← kb.publishContexts pub pub.failureContexts ⟨[], []⟩
    kb.enforceLimit
    return batch.published
  else pure []

/-- An existing record with one more success. -/
def renewedSuccess (report : SuccessReport) (existing : GuildRecord) (now : Time) : GuildRecord :=
  { existing with
    successCount := existing.successCount + 1
    updatedAt := now
    role := report.role.or existing.role
    project := kb.config.projectName.or existing.project }

/-- The record of a success that was not known. -/
def createdSuccess (report : SuccessReport) (fingerprint : FailureFingerprint)
    (createdAt updatedAt : Time) : GuildRecord where
  fingerprint := fingerprint
  resolutionHint := none
  approachAdjustment := []
  role := report.role
  project := kb.config.projectName
  successCount := 1
  failureCount := 0
  createdAt := createdAt
  updatedAt := updatedAt
  metadata := report.metadata.getD []

/-- The fingerprint of a success, whose input must be JSON serialisable. -/
def successFingerprint (report : SuccessReport) : Except PyExc FailureFingerprint :=
  (inputFingerprint kb.sha256Hex report.inputData).map fun inputFingerprint =>
    ⟨report.capability, "_success", inputFingerprint⟩

def publishSuccess (report : SuccessReport) : GuildBlock (Option GuildRecord) :=
  if kb.config.enabled then do
    let fingerprint ← ofExcept (kb.successFingerprint report)
    let record ← upsert fingerprint (kb.renewedSuccess report)
      (kb.createdSuccess report fingerprint)
    kb.enforceLimit
    return some record
  else pure none

def publishFailure (capability : String) (failure : FailureContext)
    (role resolutionHint : Option String) (approachAdjustment : Option Dict) :
    GuildBlock (Option GuildRecord) := do
  let records ← kb.publish ⟨capability, [failure], role, resolutionHint, approachAdjustment, none⟩
  return records.head?

end FailureKnowledgeBase

/-- A call of one of the publishing methods. -/
inductive KnowledgeCall where
  | publish (pub : Publication)
  | publishFailure (capability : String) (failure : FailureContext)
      (role resolutionHint : Option String) (approachAdjustment : Option Dict)
  | publishSuccess (report : SuccessReport)

/-- The call, for a caller who does not use its result. -/
def FailureKnowledgeBase.block (kb : FailureKnowledgeBase) : KnowledgeCall → GuildBlock Unit
  | .publish pub => do
      let _ ← kb.publish pub
      return ()
  | .publishFailure capability failure role resolutionHint approachAdjustment => do
      let _ ← kb.publishFailure capability failure role resolutionHint approachAdjustment
      return ()
  | .publishSuccess report => do
      let _ ← kb.publishSuccess report
      return ()

/-- A store and a clock. -/
def GuildStore.machine {S : Type} (store : GuildStore S) (clock : GuildHistory → Time) :
    Machine S GuildCall GuildAnswer where
  respond h s
    | .now => (.ok (clock h), s)
    | .get fingerprint => (store.get fingerprint s, s)
    | .save record =>
        match store.save record s with
        | .ok s' => (.ok (), s')
        | .error e => (.error e, s)
    | .list q => (store.list q s, s)
    | .delete fingerprint =>
        match store.delete fingerprint s with
        | .ok (deleted, s') => (.ok deleted, s')
        | .error e => (.error e, s)

/-- The calls are made one after the other; an exception ends its call only. -/
def FailureKnowledgeBase.runCalls {S : Type} (kb : FailureKnowledgeBase) (store : GuildStore S)
    (clock : GuildHistory → Time) :
    List KnowledgeCall → Config S GuildCall GuildAnswer → Config S GuildCall GuildAnswer
  | [], k => k
  | call :: rest, k =>
      kb.runCalls store clock rest (((kb.block call).run ()).exec (store.machine clock) k).2

end Conductor
