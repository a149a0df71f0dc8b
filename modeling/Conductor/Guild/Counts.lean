/-
The counts of a guild record.  However failures and successes are spread over
calls and within them, the record of a key counts each of its occurrences once.
-/
import Conductor.Guild.Ledger

namespace Conductor

open Json

/-- What was found under a key counts these occurrences; nothing is found
exactly if there was none. -/
def Counted (failures successes : Nat) : Option GuildRecord → Prop
  | none => failures = 0 ∧ successes = 0
  | some record => 0 < failures + successes ∧ record.failureCount = failures ∧
      record.successCount = successes

instance (failures successes : Nat) : DecidablePred (Counted failures successes)
  | none => inferInstanceAs (Decidable (_ ∧ _))
  | some _ => inferInstanceAs (Decidable (_ ∧ _ ∧ _))

namespace FailureKnowledgeBase

variable {kb : FailureKnowledgeBase} {f : Dict → Dict} {failed succeeded : Nat}
variable {old : Option GuildRecord}

/-- A failure that is recorded for the first time in a call is counted. -/
theorem counted_upserted (hold : Counted failed succeeded old) (pub : Publication)
    (fingerprint : FailureFingerprint) :
    Counted (failed + 1) succeeded
      (some (upserted f (kb.renewed pub) (kb.created pub fingerprint) old)) := by
  refine ⟨by omega, ?_⟩
  cases old with
  | none =>
      obtain ⟨rfl, rfl⟩ := hold
      exact ⟨rfl, rfl⟩
  | some record =>
      obtain ⟨-, hfailures, hsuccesses⟩ := hold
      refine ⟨?_, hsuccesses⟩
      change record.failureCount + 1 = _
      rw [hfailures]
      rfl

theorem counted_upsertedSuccess (hold : Counted failed succeeded old) (report : SuccessReport)
    (fingerprint : FailureFingerprint) :
    Counted failed (succeeded + 1)
      (some
        (upserted f (kb.renewedSuccess report) (kb.createdSuccess report fingerprint) old)) := by
  refine ⟨by omega, ?_⟩
  cases old with
  | none =>
      obtain ⟨rfl, rfl⟩ := hold
      exact ⟨rfl, rfl⟩
  | some record =>
      obtain ⟨-, hfailures, hsuccesses⟩ := hold
      refine ⟨hfailures, ?_⟩
      change record.successCount + 1 = _
      rw [hsuccesses]
      rfl

/-- Each failure context of a call is counted once, whether its key was seen
before in the call or not. -/
theorem counted_contexts {pub : Publication} {key : String} {contexts : List FailureContext}
    {slot : Slot} (hslot : Counted failed succeeded slot.record)
    (hseen : slot.seen = true → slot.record.isSome) :
    Counted (failed + (contexts.map fun ctx =>
        (kb.fingerprintOf pub.capability ctx).toKey).count key) succeeded
      (contexts.foldl (kb.contextEffect f pub key) slot).record := by
  induction contexts generalizing failed slot with
  | nil => exact hslot
  | cons ctx rest ih =>
      rw [List.foldl_cons, List.map_cons]
      by_cases hkey : (kb.fingerprintOf pub.capability ctx).toKey = key
      · rw [hkey, List.count_cons_self, Nat.add_comm _ 1, ← Nat.add_assoc]
        cases hfirst : slot.seen with
        | false =>
            rw [contextEffect_first hkey hfirst]
            exact ih (counted_upserted hslot pub _) fun _ => rfl
        | true =>
            obtain ⟨record, hrecord⟩ := Option.isSome_iff_exists.mp (hseen hfirst)
            rw [contextEffect_again hkey hfirst]
            rw [hrecord] at hslot ⊢
            obtain ⟨-, hfailures, hsuccesses⟩ := hslot
            refine ih ⟨by omega, ?_, hsuccesses⟩ fun _ => rfl
            change record.failureCount + 1 = _
            rw [hfailures]
            rfl
      · rw [contextEffect_of_ne hkey, List.count_cons_of_ne hkey]
        exact ih hslot hseen

theorem counted_publish (hold : Counted failed succeeded old) (pub : Publication) (key : String) :
    Counted (failed + (pub.failureContexts.map fun ctx =>
        (kb.fingerprintOf pub.capability ctx).toKey).count key) succeeded
      (kb.publishEffect f pub key old) :=
  counted_contexts hold fun hseen => by cases hseen

/-- A call is counted where its keys are. -/
theorem counted_call (hold : Counted failed succeeded old) (call : KnowledgeCall) (key : String) :
    Counted (failed + (kb.failureKeys call).count key)
      (succeeded + (kb.successKeys call).count key) (kb.callEffect f call key old) := by
  cases call with
  | publish pub => exact counted_publish hold pub key
  | publishFailure capability failure role resolutionHint approachAdjustment =>
      exact counted_publish hold
        ⟨capability, [failure], role, resolutionHint, approachAdjustment, none⟩ key
  | publishSuccess report =>
      cases hfingerprint : kb.successFingerprint report with
      | error e =>
          have hkeys : kb.successKeys (.publishSuccess report) = [] := by
            simp only [successKeys, hfingerprint]
          rw [hkeys, callEffect, successEffect_error hfingerprint]
          exact hold
      | ok fingerprint =>
          have hkeys : kb.successKeys (.publishSuccess report) = [fingerprint.toKey] := by
            simp only [successKeys, hfingerprint]
          rw [hkeys, callEffect, successEffect_ok hfingerprint]
          by_cases hkey : fingerprint.toKey = key
          · rw [if_pos hkey, hkey, List.count_singleton_self]
            exact counted_upsertedSuccess hold report fingerprint
          · rw [if_neg hkey, List.count_singleton, beq_eq_false_iff_ne.mpr hkey]
            exact hold

/-- How often a key occurs as a failure, and as a success. -/
def failures (kb : FailureKnowledgeBase) (calls : List KnowledgeCall) (key : String) : Nat :=
  (calls.flatMap kb.failureKeys).count key

def successes (kb : FailureKnowledgeBase) (calls : List KnowledgeCall) (key : String) : Nat :=
  (calls.flatMap kb.successKeys).count key

theorem counted_calls (hold : Counted failed succeeded old) (calls : List KnowledgeCall)
    (key : String) :
    Counted (failed + kb.failures calls key) (succeeded + kb.successes calls key)
      (calls.foldl (fun old call => kb.callEffect f call key old) old) := by
  induction calls generalizing failed succeeded old with
  | nil => exact hold
  | cons call rest ih =>
      rw [FailureKnowledgeBase.failures, FailureKnowledgeBase.successes, List.flatMap_cons,
        List.flatMap_cons, List.count_append, List.count_append, ← Nat.add_assoc, ← Nat.add_assoc]
      exact ih (counted_call hold call key)

/-- For every fingerprint, the store has a record with the counts of the calls,
and none if there is nothing to count. -/
def Conserves {S : Type} (kb : FailureKnowledgeBase) (store : GuildStore S)
    (calls : List KnowledgeCall) (s : S) : Prop :=
  ∀ fingerprint : FailureFingerprint, ∃ found, store.get fingerprint s = .ok found ∧
    Counted (kb.failures calls fingerprint.toKey) (kb.successes calls fingerprint.toKey) found

theorem conserves_of_shows {S : Type} {store : GuildStore S} {admits : GuildRecord → Prop}
    {Holds : S → List (String × GuildRecord) → Prop} (hlawful : store.Lawful admits f Holds)
    {s : S} {records : List (String × GuildRecord)} (hholds : Holds s records)
    {calls : List KnowledgeCall} (hshows : Shows records (kb.ledger f calls)) :
    kb.Conserves store calls s := by
  intro fingerprint
  refine ⟨_, hlawful.get fingerprint hholds, ?_⟩
  have hcounted : Counted (0 + kb.failures calls fingerprint.toKey)
      (0 + kb.successes calls fingerprint.toKey) (kb.ledger f calls fingerprint.toKey) := by
    apply counted_calls
    exact ⟨rfl, rfl⟩
  rw [Nat.zero_add, Nat.zero_add, ← hshows] at hcounted
  cases hlookup : records.lookup fingerprint.toKey with
  | none =>
      rw [hlookup] at hcounted
      exact hcounted
  | some record =>
      rw [hlookup] at hcounted
      exact hcounted

end FailureKnowledgeBase

namespace MemoryGuildStore

/-- Nothing is stored, nothing has been called. -/
abbrev initial : GuildState MemoryGuildStore := ⟨[], .empty⟩

/-- What the store in memory holds. -/
def Holds (store : MemoryGuildStore) (records : List (String × GuildRecord)) : Prop :=
  store.records = records ∧ Filed records

theorem terms (limit : Nat) :
    GuildTerms operations (fun _ => True) id Holds (fun _ => True) limit where
  lawful := lawful
  dicts := ⟨trivial, fun _ _ => trivial, fun _ => trivial⟩
  admits _ _ := trivial

end MemoryGuildStore

namespace LocalGuildStore

/-- There is no file, nothing has been called. -/
abbrev initial : GuildState GuildFile := ⟨[], none⟩

/-- A dict that JSON carries. -/
def Carried (d : Dict) : Prop := Faithful (.dict d)

theorem dictsKept : DictsKept sortedDict Carried where
  nil := ⟨List.nodup_nil, trivial⟩
  update := by
    intro d other hd hother
    unfold Dict.update
    have hitems := faithfulItems_iff.mp hother.2
    clear hother
    induction other generalizing d with
    | nil => exact hd
    | cons item rest ih =>
        rw [List.forall_mem_cons] at hitems
        rw [List.foldl_cons, Dict.insert_eq]
        exact ih (faithful_insert hd hitems.1) hitems.2
  read hd := Faithful.sorted hd

theorem terms {p : Pydantic} (hp : p.Lawful) {limit : Nat} (hlimit : limit < digitLimit) :
    GuildTerms (operations p) GuildRecord.Serialisable sortedDict (Holds p) Carried limit where
  lawful := lawful hp
  dicts := dictsKept
  admits := by
    intro record hrecord
    have hcounts := hrecord.counts
    exact ⟨hrecord.approachAdjustment, hrecord.metadata, by omega, by omega⟩

/-- The file also takes dicts whose dump is another dict. -/
theorem terms_dumped {p : Pydantic} (hp : p.Lawful) {limit : Nat} (hlimit : limit < digitLimit) :
    GuildTerms (operations p) (GuildRecord.Dumpable p) p.dumped (HoldsAs p p.dumped) p.Dumpable
      limit where
  lawful := lawful_dumped hp
  dicts := ⟨Pydantic.dumpable_of_faithful ⟨List.nodup_nil, trivial⟩,
    Pydantic.Dumpable.update, Pydantic.Dumpable.dumped⟩
  admits := by
    intro record hrecord
    have hcounts := hrecord.counts
    exact ⟨hrecord.approachAdjustment, hrecord.metadata, by omega, by omega⟩

end LocalGuildStore

namespace FailureKnowledgeBase

/-- From an empty store that has room for its keys, a history leaves what the
effects of its calls add up to. -/
theorem shows_of_start {S : Type} {store : GuildStore S} {admits : GuildRecord → Prop}
    {Holds : S → List (String × GuildRecord) → Prop} {D : Dict → Prop} {kb : FailureKnowledgeBase}
    {clock : GuildHistory → Time} {calls : List KnowledgeCall} {start : S} {limit : Nat}
    {keys : List String} (hterms : GuildTerms store admits f Holds D limit)
    (hstart : Holds start []) (henabled : kb.config.enabled = true)
    (hpasses : ∀ call ∈ calls, call.Passes D)
    (hlimit : (calls.flatMap kb.touchedKeys).length ≤ limit)
    (hkeys : ∀ key ∈ calls.flatMap kb.touchedKeys, key ∈ keys) (hroom : kb.RoomFor keys) :
    ∃ records, Holds (kb.runCalls store clock calls ⟨[], start⟩).state records ∧
      Shows records (kb.ledger f calls) := by
  have hkept : Stocked Holds D keys 0 start [] :=
    ⟨hstart, List.forall_mem_nil _, List.forall_mem_nil _⟩
  refine runCalls_shows (k := ⟨[], start⟩) hterms henabled hpasses hkept (fun _ => rfl) ?_
    hkeys hroom
  rwa [Nat.zero_add]

/-- Counts are conserved.  For every history of calls on an enabled knowledge
base with an empty store that has room for its keys, the store in memory has
for every fingerprint a record with the number of failures and of successes
with its key, and none if there are none.  So has the store in a file, if the
adjustments and metadata of the calls have a dump that JSON carries, and its
numbers their counts. -/
theorem counts_conserved (kb : FailureKnowledgeBase) (clock : GuildHistory → Time) (p : Pydantic)
    (hp : p.Lawful) (calls : List KnowledgeCall) (henabled : kb.config.enabled = true)
    (hroom : kb.RoomFor (calls.flatMap kb.touchedKeys)) :
    kb.Conserves MemoryGuildStore.operations calls
        (kb.runCalls MemoryGuildStore.operations clock calls MemoryGuildStore.initial).state ∧
      ((∀ call ∈ calls, call.Passes p.Dumpable) →
        (calls.flatMap kb.touchedKeys).length < digitLimit →
          kb.Conserves (LocalGuildStore.operations p) calls
            (kb.runCalls (LocalGuildStore.operations p) clock calls
              LocalGuildStore.initial).state) := by
  constructor
  · obtain ⟨records, hholds, hshows⟩ := shows_of_start (MemoryGuildStore.terms _) ⟨rfl, .nil⟩
      henabled (fun call _ => call.passes_true) le_rfl (fun _ hkey => hkey) hroom
    exact conserves_of_shows MemoryGuildStore.lawful hholds hshows
  · intro hpasses hlimit
    obtain ⟨records, hholds, hshows⟩ := shows_of_start (LocalGuildStore.terms_dumped hp hlimit)
      (LocalGuildStore.holdsAs_missing p _) henabled hpasses le_rfl (fun _ hkey => hkey) hroom
    exact conserves_of_shows (LocalGuildStore.lawful_dumped hp) hholds hshows

/-- An enabled knowledge base with room for two records, for two inputs. -/
def demo : FailureKnowledgeBase where
  config := ⟨true, some "demo", 2⟩
  sha256Hex text :=
    if text = "\x7b\x7d" then
      "44136fa355b3678a1146ad16f7e8649e94fb4fc21fe77e8310c060f61caaff8a"
    else "cf8f644b80ee8100db6f910fa33514be8e0ac3d3f54546de914b34c2206ad6a9"

/-- A failed attempt at an echo. -/
def echoFailure : FailureContext where
  taskId := "t"
  capability := "echo"
  attempt := 1
  maxRetries := 1
  errorType := "ValueError"
  errorMessage := "message must be non-empty"
  inputFingerprint := none
  metadata := []

/-- Two failures with one key in one call, a third one, and a success. -/
def echoCalls : List KnowledgeCall :=
  [.publish ⟨"echo", [echoFailure, echoFailure], some "worker", some "send a message",
      some [("message", .str "hello")], none⟩,
    .publishFailure "" echoFailure none none none,
    .publishSuccess ⟨"echo", [("message", .str "hello")], some "worker", none⟩]

theorem echoCalls_conserved :
    demo.Conserves MemoryGuildStore.operations echoCalls
        (demo.runCalls MemoryGuildStore.operations (fun h => h.length) echoCalls
          MemoryGuildStore.initial).state ∧
      demo.Conserves (LocalGuildStore.operations .strict) echoCalls
        (demo.runCalls (LocalGuildStore.operations .strict) (fun h => h.length) echoCalls
          LocalGuildStore.initial).state := by
  obtain ⟨hmemory, hlocal⟩ := counts_conserved demo (fun h => h.length) .strict
    Pydantic.strict_lawful echoCalls rfl (by decide +kernel)
  refine ⟨hmemory, hlocal ?_ ?_⟩
  · have hnil : Pydantic.strict.Dumpable [] :=
      Pydantic.dumpable_of_faithful ⟨List.nodup_nil, trivial⟩
    have hhint : Pydantic.strict.Dumpable [("message", .str "hello")] :=
      Pydantic.dumpable_of_faithful ⟨List.nodup_singleton _, trivial, trivial⟩
    simp only [echoCalls, List.forall_mem_cons, List.not_mem_nil, false_implies, implies_true,
      and_true]
    exact ⟨⟨hhint, hnil⟩, hnil, hnil⟩
  · have hfour : (echoCalls.flatMap demo.touchedKeys).length = 4 := by decide +kernel
    rw [hfour]
    exact lt_digitLimit (by decide)

/-- A failure with an object in its metadata that has no place in JSON. -/
def unwritable : KnowledgeCall :=
  .publish ⟨"echo", [echoFailure], none, none, none, some [("connection", .object "socket")]⟩

/-- The record cannot be written, so the call raises and its failure is not
counted, though there is room for it. -/
theorem unwritable_not_conserved : demo.RoomFor (demo.touchedKeys unwritable) ∧
    ¬demo.Conserves (LocalGuildStore.operations .strict) [unwritable]
      (demo.runCalls (LocalGuildStore.operations .strict) (fun h => h.length) [unwritable]
        LocalGuildStore.initial).state := by
  have hstate : (demo.runCalls (LocalGuildStore.operations .strict) (fun h => h.length)
      [unwritable] LocalGuildStore.initial).state = none := by decide +kernel
  have hcounted : demo.failures [unwritable]
      (demo.fingerprintOf "echo" echoFailure).toKey = 1 := by decide +kernel
  refine ⟨by decide +kernel, ?_⟩
  intro hconserves
  obtain ⟨found, hget, hfound⟩ := hconserves (demo.fingerprintOf "echo" echoFailure)
  rw [hstate] at hget
  cases hget
  rw [hcounted] at hfound
  exact absurd hfound.1 (by decide)

end FailureKnowledgeBase

end Conductor
