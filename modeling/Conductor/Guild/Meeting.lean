/-
The guild meeting: the records of the store, by capability and by role.  The
report counts every record once per grouping, except those whose role has the
name that stands for a missing role.
-/
import Mathlib.Algebra.BigOperators.Group.List.Basic
import Conductor.Guild.Knowledge
import Conductor.Python.Access
import Conductor.Python.Floats
import Conductor.Python.Isoformat
import Conductor.Python.JsonRoundTrip
import Conductor.Python.Ranking

namespace Conductor

/-- Knowledge profile for a single capability, aggregated across roles. -/
structure CapabilityProfile where
  capability : String
  totalSuccesses : Int
  totalFailures : Int
  distinctErrorTypes : List String
  roles : List String
  topFailures : List Dict
  topSuccesses : List Dict

/-- Summary of what a specific agent role has learned. -/
structure RoleKnowledgeDigest where
  role : String
  totalRecords : Nat
  capabilitiesEncountered : List String
  topFailurePatterns : List Dict
  topSuccessPatterns : List Dict

/-- A pattern or trend that spans multiple agent roles. -/
structure CrossRoleInsight where
  description : String
  capabilities : List String
  roles : List String
  severity : String

/-- Output of a guild meeting. -/
structure GuildMeetingReport where
  meetingId : String
  heldAt : Time
  totalRecords : Nat
  rolesPresent : List String
  capabilityProfiles : List CapabilityProfile
  roleDigests : List RoleKnowledgeDigest
  crossRoleInsights : List CrossRoleInsight
  summary : String

/-- Periodic or on-demand guild knowledge consolidation. -/
structure GuildMeetingService (S : Type) where
  store : GuildStore S
  config : GuildConfig

namespace Meeting

def successErrorType : String := "_success"

/-- The role that stands for a missing one in the grouping. -/
def unassigned : String := "unassigned"

/-- `record.role or "unassigned"`. -/
def roleLabel (record : GuildRecord) : String :=
  match record.role with
  | none => unassigned
  | some role => if role = "" then unassigned else role

def byRole (records : List GuildRecord) : List (String × List GuildRecord) :=
  Assoc.groupBy (fun record => some (roleLabel record)) records

def byCapability (records : List GuildRecord) : List (String × List GuildRecord) :=
  Assoc.groupBy (fun record => some record.fingerprint.capability) records

def failureRecords (records : List GuildRecord) : List GuildRecord :=
  records.filter fun record => record.fingerprint.errorType ≠ successErrorType

def successRecords (records : List GuildRecord) : List GuildRecord :=
  records.filter fun record => record.fingerprint.errorType = successErrorType

def successSum (records : List GuildRecord) : Int := (records.map (·.successCount)).sum

def failureSum (records : List GuildRecord) : Int := (records.map (·.failureCount)).sum

/-- The roles of the records, without the empty one. -/
def rolesOf (records : List GuildRecord) : List String :=
  sortedSet ((records.filterMap (·.role)).filter (· ≠ ""))

/-- The first of the records, the greatest count first. -/
def top (count : GuildRecord → Int) (bound : Nat) (records : List GuildRecord) :
    List GuildRecord :=
  (sortedDescending count records).take bound

def profileFailure (record : GuildRecord) : Dict :=
  [("error_type", .str record.fingerprint.errorType),
    ("input_fingerprint", .str record.fingerprint.inputFingerprint),
    ("count", .int record.failureCount), ("hint", .ofStr? record.resolutionHint)]

def profileSuccess (record : GuildRecord) : Dict :=
  [("input_fingerprint", .str record.fingerprint.inputFingerprint),
    ("count", .int record.successCount), ("adjustment", .dict record.approachAdjustment)]

def profile (group : String × List GuildRecord) : CapabilityProfile where
  capability := group.1
  totalSuccesses := successSum group.2
  totalFailures := failureSum group.2
  distinctErrorTypes := sortedSet ((failureRecords group.2).map (·.fingerprint.errorType))
  roles := rolesOf group.2
  topFailures := (top (·.failureCount) 3 (failureRecords group.2)).map profileFailure
  topSuccesses := (top (·.successCount) 3 (successRecords group.2)).map profileSuccess

def capabilityProfiles (records : List GuildRecord) : List CapabilityProfile :=
  (byKey (byCapability records)).map profile

def digestFailure (record : GuildRecord) : Dict :=
  [("capability", .str record.fingerprint.capability),
    ("error_type", .str record.fingerprint.errorType),
    ("count", .int record.failureCount), ("hint", .ofStr? record.resolutionHint)]

def digestSuccess (record : GuildRecord) : Dict :=
  [("capability", .str record.fingerprint.capability),
    ("input_fingerprint", .str record.fingerprint.inputFingerprint),
    ("count", .int record.successCount)]

def digest (group : String × List GuildRecord) : RoleKnowledgeDigest where
  role := group.1
  totalRecords := group.2.length
  capabilitiesEncountered := sortedSet (group.2.map (·.fingerprint.capability))
  topFailurePatterns := (top (·.failureCount) 5 (failureRecords group.2)).map digestFailure
  topSuccessPatterns := (top (·.successCount) 5 (successRecords group.2)).map digestSuccess

def roleDigests (records : List GuildRecord) : List RoleKnowledgeDigest :=
  ((byKey (byRole records)).filter (·.1 ≠ unassigned)).map digest

def rolesPresent (records : List GuildRecord) : List String :=
  ((Assoc.keys (byRole records)).filter (· ≠ unassigned)).insertionSort (· ≤ ·)

/-! ### Insights -/

/-- The capability that spans the most roles, the first of those, if it spans
more than one. -/
def widestInsight (groups : List (String × List GuildRecord)) : List CrossRoleInsight :=
  match sortedDescending (fun group => (rolesOf group.2).length) groups with
  | [] => []
  | group :: _ =>
      let rolesUsing := rolesOf group.2
      if 1 < rolesUsing.length then
        [{ description := "Capability '" ++ group.1 ++ "' is used across " ++
             toString rolesUsing.length ++ " roles: " ++ ", ".intercalate rolesUsing ++
             ". Knowledge about this capability benefits the widest audience."
           capabilities := [group.1]
           roles := rolesUsing
           severity := "info" }]
      else []

/-- An insight about the rate of what is counted, in percent. -/
def rateInsight (noun plural advice : String) (severity : Magnitude → String)
    (counted total : Int) (group : String × List GuildRecord) :
    Except PyExc CrossRoleInsight := do
  let quotient ← trueDivision counted total
  let rate := quotient.times 100
  let countedText ← (Value.int counted).asStr
  let totalText ← (Value.int total).asStr
  return {
    description := "Capability '" ++ group.1 ++ "' has a " ++ rate.formatWhole ++ "% " ++ noun ++
      " rate (" ++ countedText ++ " " ++ plural ++ " in " ++ totalText ++ " attempts). " ++ advice
    capabilities := [group.1]
    roles := rolesOf group.2
    severity := severity rate
  }

/-- The capability has failed in most of five attempts or more. -/
def Failing (success failure : Int) : Prop := 5 ≤ success + failure ∧ success < failure

/-- The capability has succeeded in most of five attempts or more, by three to one. -/
def Reliable (success failure : Int) : Prop := 5 ≤ success + failure ∧ failure * 3 < success

instance failingDecidable (success failure : Int) : Decidable (Failing success failure) :=
  inferInstanceAs (Decidable (_ ∧ _))

instance reliableDecidable (success failure : Int) : Decidable (Reliable success failure) :=
  inferInstanceAs (Decidable (_ ∧ _))

def failureInsight (group : String × List GuildRecord) : Except PyExc (Option CrossRoleInsight) :=
  let totalSuccess := successSum group.2
  let totalFailure := failureSum group.2
  if Failing totalSuccess totalFailure then
    some <$> rateInsight "failure" "failures"
      "Consider reviewing inputs or approach adjustments."
      (fun rate => if rate.exceeds 75 then "warning" else "info") totalFailure
      (totalSuccess + totalFailure) group
  else .ok none

def successInsight (group : String × List GuildRecord) : Except PyExc (Option CrossRoleInsight) :=
  let totalSuccess := successSum group.2
  let totalFailure := failureSum group.2
  if Reliable totalSuccess totalFailure then
    some <$> rateInsight "success" "successes"
      "Approach adjustments for this capability are well-established."
      (fun _ => "info") totalSuccess (totalSuccess + totalFailure) group
  else .ok none

def crossRoleInsights (records : List GuildRecord) : Except PyExc (List CrossRoleInsight) := do
  let groups := byCapability records
  let failing ← groups.mapM failureInsight
  let reliable ← groups.mapM successInsight
  return widestInsight groups ++ failing.reduceOption ++ reliable.reduceOption

def summaryText (records : List GuildRecord) (insights : List CrossRoleInsight) (now : Time) :
    Except PyExc String := do
  let successes ← (Value.int (successSum records)).asStr
  let failures ← (Value.int (failureSum records)).asStr
  let warnings := (insights.filter fun insight => insight.severity = "warning").length
  return " ".intercalate (
    ["Guild meeting held at " ++ Datetime.utcIsoformat now ++ ".",
      "Reviewed " ++ toString records.length ++ " knowledge records across " ++
        toString (rolesPresent records).length ++ " role(s).",
      "Total tracked: " ++ successes ++ " successes, " ++ failures ++ " failures."] ++
    (if warnings = 0 then []
      else [toString warnings ++ " warning(s) detected — see cross-role insights."]) ++
    ["Next meeting: run 'cond guild meet' or schedule via cron trigger."])

end Meeting

open Meeting

/-- Run a guild meeting.  The clock is read up to three times. -/
def GuildMeetingService.holdMeeting {S : Type} (service : GuildMeetingService S)
    (clock : Nat → Time) (s : S) : Except PyExc (Option GuildMeetingReport) :=
  if service.config.enabled then do
    let allRecords ← service.store.list .all s
    if allRecords.isEmpty then
      return some {
        meetingId := Datetime.utcIsoformat (clock 0)
        heldAt := clock 1
        totalRecords := 0
        rolesPresent := []
        capabilityProfiles := []
        roleDigests := []
        crossRoleInsights := []
        summary := "No guild records to review. The guild is empty."
      }
    let insights ← crossRoleInsights allRecords
    let summary ← summaryText allRecords insights (clock 0)
    return some {
      meetingId := Datetime.utcIsoformat (clock 1)
      heldAt := clock 2
      totalRecords := allRecords.length
      rolesPresent := rolesPresent allRecords
      capabilityProfiles := capabilityProfiles allRecords
      roleDigests := roleDigests allRecords
      crossRoleInsights := insights
      summary := summary
    }
  else return none

namespace Meeting

/-- The entries of as many records as there are up to the bound, in the order of
their counts; no record that is left out has a greater count. -/
def TopOf (count : GuildRecord → Int) (entry : GuildRecord → Dict) (bound : Nat)
    (records : List GuildRecord) (entries : List Dict) : Prop :=
  ∃ chosen rest : List GuildRecord, (chosen ++ rest).Perm records ∧ entries = chosen.map entry ∧
    chosen.Pairwise (fun record record' => count record' ≤ count record) ∧
    chosen.length = min bound records.length ∧
    ∀ record ∈ chosen, ∀ record' ∈ rest, count record' ≤ count record

def ofCapability (capability : String) (records : List GuildRecord) : List GuildRecord :=
  records.filter fun record => record.fingerprint.capability = capability

def ofRole (role : String) (records : List GuildRecord) : List GuildRecord :=
  records.filter fun record => record.role = some role

/-- One profile for each capability, and every count in one of them. -/
structure ProfilesConserve (records : List GuildRecord) (profiles : List CapabilityProfile) :
    Prop where
  nodup : (profiles.map (·.capability)).Nodup
  covers : ∀ capability, capability ∈ profiles.map (·.capability) ↔
    ∃ record ∈ records, record.fingerprint.capability = capability
  successes : (profiles.map (·.totalSuccesses)).sum = successSum records
  failures : (profiles.map (·.totalFailures)).sum = failureSum records
  topFailures : ∀ profile ∈ profiles, TopOf (·.failureCount) profileFailure 3
    (failureRecords (ofCapability profile.capability records)) profile.topFailures
  topSuccesses : ∀ profile ∈ profiles, TopOf (·.successCount) profileSuccess 3
    (successRecords (ofCapability profile.capability records)) profile.topSuccesses

/-- One digest for each role, which counts the records of that role and no other;
`present` are the roles that the report names. -/
structure DigestsConserve (records : List GuildRecord) (digests : List RoleKnowledgeDigest)
    (present : List String) : Prop where
  nodup : (digests.map (·.role)).Nodup
  present : digests.map (·.role) = present
  named : "" ∉ digests.map (·.role)
  counted : ∀ record ∈ records, ∀ role, record.role = some role → role ≠ "" →
    role ∈ digests.map (·.role)
  totals : ∀ digest ∈ digests, digest.totalRecords = (ofRole digest.role records).length
  topFailures : ∀ digest ∈ digests, TopOf (·.failureCount) digestFailure 5
    (failureRecords (ofRole digest.role records)) digest.topFailurePatterns
  topSuccesses : ∀ digest ∈ digests, TopOf (·.successCount) digestSuccess 5
    (successRecords (ofRole digest.role records)) digest.topSuccessPatterns

/-- The report counts the records as it should. -/
structure Conserves (records : List GuildRecord) (report : GuildMeetingReport) : Prop where
  profiles : ProfilesConserve records report.capabilityProfiles
  digests : DigestsConserve records report.roleDigests report.rolesPresent

variable {records : List GuildRecord}

theorem topOf_top (count : GuildRecord → Int) (entry : GuildRecord → Dict) (bound : Nat)
    (records : List GuildRecord) :
    TopOf count entry bound records ((top count bound records).map entry) := by
  obtain ⟨rest, hperm, hsorted, hlength, hrest⟩ := sortedDescending_split count bound records
  exact ⟨_, rest, hperm, rfl, hsorted, hlength, hrest⟩

theorem mem_byCapability {group : String × List GuildRecord} :
    group ∈ byKey (byCapability records) ↔
      (∃ record ∈ records, record.fingerprint.capability = group.1) ∧
        group.2 = ofCapability group.1 records := by
  rw [(byKey_perm _).mem_iff]
  exact Assoc.mem_groupBy

/-- What is summed over the groups is summed over the records. -/
theorem sum_byCapability (count : GuildRecord → Int) (records : List GuildRecord) :
    ((byKey (byCapability records)).map fun group => (group.2.map count).sum).sum =
      (records.map count).sum := by
  have hgroups := (byKey_perm (byCapability records)).flatMap_right (·.2)
  have hrecords : ((byKey (byCapability records)).flatMap (·.2)).Perm records :=
    hgroups.trans (Assoc.flatMap_groupBy_perm _ records)
  rw [← (hrecords.map count).sum_eq, List.map_flatMap, List.flatMap_def, List.sum_flatten,
    List.map_map]
  rfl

theorem profiles_conserve (records : List GuildRecord) :
    ProfilesConserve records (capabilityProfiles records) := by
  have hcapabilities : (capabilityProfiles records).map (·.capability) =
      Assoc.keys (byKey (byCapability records)) := by
    rw [capabilityProfiles, List.map_map]
    rfl
  have hprofile : ∀ p ∈ capabilityProfiles records,
      ∃ group ∈ byKey (byCapability records), profile group = p ∧
        group.2 = ofCapability p.capability records := by
    intro p hp
    obtain ⟨group, hgroup, rfl⟩ := List.mem_map.mp hp
    exact ⟨group, hgroup, rfl, (mem_byCapability.mp hgroup).2⟩
  refine ⟨?_, ?_, ?_, ?_, ?_, ?_⟩
  · rw [hcapabilities]
    exact nodup_byKey (Assoc.nodup_groupBy _ records)
  · intro capability
    rw [hcapabilities, mem_keys_byKey]
    exact Assoc.mem_keys_groupBy
  · rw [capabilityProfiles, List.map_map]
    exact sum_byCapability _ records
  · rw [capabilityProfiles, List.map_map]
    exact sum_byCapability _ records
  · intro p hp
    obtain ⟨group, -, rfl, hrecords⟩ := hprofile p hp
    rw [← hrecords]
    exact topOf_top _ _ _ _
  · intro p hp
    obtain ⟨group, -, rfl, hrecords⟩ := hprofile p hp
    rw [← hrecords]
    exact topOf_top _ _ _ _

/-! ### The digests -/

/-- A label other than the default is the role of the record. -/
theorem roleLabel_eq_iff {record : GuildRecord} {role : String} (hrole : role ≠ unassigned) :
    roleLabel record = role ↔ record.role = some role ∧ role ≠ "" := by
  unfold roleLabel
  cases record.role with
  | none => simp [Ne.symm hrole]
  | some name =>
      by_cases hname : name = ""
      · simp only [hname, if_true, Option.some.injEq]
        constructor
        · intro heq
          exact absurd heq.symm hrole
        · intro hempty
          exact absurd hempty.1.symm hempty.2
      · simp only [hname, if_false, Option.some.injEq]
        constructor
        · intro heq
          exact ⟨heq, heq ▸ hname⟩
        · intro heq
          exact heq.1

theorem mem_roleGroups {group : String × List GuildRecord}
    (hmem : group ∈ (byKey (byRole records)).filter (·.1 ≠ unassigned)) :
    group.1 ≠ "" ∧ group.2 = ofRole group.1 records := by
  rw [List.mem_filter, (byKey_perm _).mem_iff] at hmem
  have hrole : group.1 ≠ unassigned := of_decide_eq_true hmem.2
  obtain ⟨⟨record, -, hlabel⟩, hrecords⟩ := Assoc.mem_groupBy.mp hmem.1
  have hname := ((roleLabel_eq_iff hrole).mp hlabel).2
  refine ⟨hname, hrecords.trans (List.filter_congr fun record _ => ?_)⟩
  exact decide_eq_decide.mpr ((roleLabel_eq_iff hrole).trans (and_iff_left hname))

theorem mem_roles {role : String} :
    role ∈ (roleDigests records).map (·.role) ↔
      role ≠ unassigned ∧ ∃ record ∈ records, roleLabel record = role := by
  have hkeys : role ∈ Assoc.keys (byKey (byRole records)) ↔
      ∃ record ∈ records, roleLabel record = role := by
    rw [mem_keys_byKey]
    exact Assoc.mem_keys_groupBy
  rw [← hkeys, roleDigests, List.map_map]
  simp [Assoc.keys, digest, and_comm]

/-- The digests come in the order of the names of their roles. -/
theorem roles_eq_present (records : List GuildRecord) :
    (roleDigests records).map (·.role) = rolesPresent records := by
  have hroles : (roleDigests records).map (·.role) =
      (Assoc.keys (byKey (byRole records))).filter (· ≠ unassigned) := by
    rw [roleDigests, List.map_map, Assoc.keys, List.filter_map]
    rfl
  have hperm : ((roleDigests records).map (·.role)).Perm (rolesPresent records) := by
    rw [hroles]
    exact (((byKey_perm (byRole records)).map _).filter _).trans
      (List.perm_insertionSort _ _).symm
  have hsorted : ((roleDigests records).map (·.role)).Pairwise (· ≤ ·) := by
    rw [hroles]
    exact (List.pairwise_map.mpr (byKey_pairwise _)).filter _
  exact hperm.eq_of_pairwise (fun _ _ _ _ => le_antisymm) hsorted
    (List.pairwise_insertionSort _ _)

theorem digests_conserve (hroles : ∀ record ∈ records, record.role ≠ some unassigned) :
    DigestsConserve records (roleDigests records) (rolesPresent records) := by
  have hdigest : ∀ d ∈ roleDigests records, ∃ group, digest group = d ∧ d.role ≠ "" ∧
      group.2 = ofRole d.role records := by
    intro d hd
    obtain ⟨group, hgroup, rfl⟩ := List.mem_map.mp hd
    exact ⟨group, rfl, mem_roleGroups hgroup⟩
  refine ⟨?_, roles_eq_present records, ?_, ?_, ?_, ?_, ?_⟩
  · rw [roles_eq_present]
    apply ((List.perm_insertionSort _ _).nodup_iff).mpr
    exact (Assoc.nodup_groupBy _ records).filter _
  · intro hempty
    obtain ⟨d, hd, hrole⟩ := List.mem_map.mp hempty
    obtain ⟨group, -, hname, -⟩ := hdigest d hd
    exact hname hrole
  · intro record hrecord role hrole hname
    have hne : role ≠ unassigned := by
      rintro rfl
      exact hroles record hrecord hrole
    exact mem_roles.mpr ⟨hne, record, hrecord, (roleLabel_eq_iff hne).mpr ⟨hrole, hname⟩⟩
  · intro d hd
    obtain ⟨group, rfl, -, hrecords⟩ := hdigest d hd
    rw [← hrecords]
    rfl
  · intro d hd
    obtain ⟨group, rfl, -, hrecords⟩ := hdigest d hd
    rw [← hrecords]
    exact topOf_top _ _ _ _
  · intro d hd
    obtain ⟨group, rfl, -, hrecords⟩ := hdigest d hd
    rw [← hrecords]
    exact topOf_top _ _ _ _

/-- A record whose role has the name of the default is in no digest. -/
theorem not_conserves_unassigned {record : GuildRecord} (hrecord : record ∈ records)
    (hrole : record.role = some unassigned) (present : List String) :
    ¬ DigestsConserve records (roleDigests records) present := by
  intro hconserve
  have hcounted := hconserve.counted record hrecord unassigned hrole (by decide)
  exact (mem_roles.mp hcounted).1 rfl

/-! ### Counts that can be reported -/

/-- The int is short enough to be printed. -/
def Printable (n : Int) : Prop := n.natAbs < Json.digitLimit

/-- The rate of what is counted is in the range of the floats, and the numbers
that are told with it are short enough. -/
structure Expressible (counted total : Int) : Prop where
  rate : counted < Magnitude.limit * total
  counted : Printable counted
  total : Printable total

/-- If there is an insight into the records, its rate can be told. -/
def Tellable (selects : Int → Int → Prop) (counted : List GuildRecord → Int)
    (records : List GuildRecord) : Prop :=
  selects (successSum records) (failureSum records) →
    Expressible (counted records) (successSum records + failureSum records)

/-- The counts of the records are not too large to be told in the report. -/
structure Countable (records : List GuildRecord) : Prop where
  successes : Printable (successSum records)
  failures : Printable (failureSum records)
  failing : ∀ capability, Tellable Failing failureSum (ofCapability capability records)
  reliable : ∀ capability, Tellable Reliable successSum (ofCapability capability records)

theorem asStr_ok_iff {n : Int} : (∃ text, (Value.int n).asStr = .ok text) ↔ Printable n := by
  unfold Value.asStr Value.hasLongInt Printable
  by_cases hlong : Json.digitLimit ≤ n.natAbs
  · simp [hlong]
  · simp [hlong, not_le.mp hlong]

theorem rateInsight_ok_iff {noun plural advice : String} {severity : Magnitude → String}
    {counted total : Int} {group : String × List GuildRecord} (htotal : 0 < total) :
    (∃ insight, rateInsight noun plural advice severity counted total group = .ok insight) ↔
      Expressible counted total := by
  constructor
  · intro hinsight
    obtain ⟨insight, hinsight⟩ := hinsight
    obtain ⟨quotient, hquotient, hinsight⟩ := Except.ok_of_bind hinsight
    obtain ⟨countedText, hcounted, hinsight⟩ := Except.ok_of_bind hinsight
    obtain ⟨totalText, htext, -⟩ := Except.ok_of_bind hinsight
    exact ⟨(trueDivision_ok_iff htotal).mp ⟨quotient, hquotient⟩,
      asStr_ok_iff.mp ⟨countedText, hcounted⟩, asStr_ok_iff.mp ⟨totalText, htext⟩⟩
  · intro hexpressible
    obtain ⟨quotient, hquotient⟩ := (trueDivision_ok_iff htotal).mpr hexpressible.rate
    obtain ⟨countedText, hcounted⟩ := asStr_ok_iff.mpr hexpressible.counted
    obtain ⟨totalText, htext⟩ := asStr_ok_iff.mpr hexpressible.total
    unfold rateInsight
    rw [bind_of_ok hquotient, bind_of_ok hcounted, bind_of_ok htext]
    exact ⟨_, rfl⟩

theorem map_ok_iff {α β : Type} {f : α → β} {result : Except PyExc α} :
    (∃ b, f <$> result = .ok b) ↔ ∃ a, result = .ok a := by
  cases result with
  | error e => simp
  | ok a => simp

theorem failureInsight_ok_iff {group : String × List GuildRecord} :
    (∃ insight, failureInsight group = .ok insight) ↔
      Tellable Failing failureSum group.2 := by
  unfold failureInsight Tellable
  by_cases hfailing : Failing (successSum group.2) (failureSum group.2)
  · have hpositive : 0 < successSum group.2 + failureSum group.2 := by
      have hfive := hfailing.1
      omega
    simp only [hfailing, if_true, true_implies]
    exact map_ok_iff.trans (rateInsight_ok_iff hpositive)
  · simp [hfailing]

theorem successInsight_ok_iff {group : String × List GuildRecord} :
    (∃ insight, successInsight group = .ok insight) ↔
      Tellable Reliable successSum group.2 := by
  unfold successInsight Tellable
  by_cases hreliable : Reliable (successSum group.2) (failureSum group.2)
  · have hpositive : 0 < successSum group.2 + failureSum group.2 := by
      have hfive := hreliable.1
      omega
    simp only [hreliable, if_true, true_implies]
    exact map_ok_iff.trans (rateInsight_ok_iff hpositive)
  · simp [hreliable]

/-- A loop returns if every turn does. -/
theorem mapM_ok_iff {α β : Type} {f : α → Except PyExc β} {values : List α} :
    (∃ results, values.mapM f = .ok results) ↔
      ∀ value ∈ values, ∃ result, f value = .ok result := by
  induction values with
  | nil => simp [pure, Except.pure]
  | cons value rest ih =>
      rw [List.forall_mem_cons, ← ih, List.mapM_cons]
      constructor
      · intro hresults
        obtain ⟨results, hresults⟩ := hresults
        obtain ⟨result, hresult, hresults⟩ := Except.ok_of_bind hresults
        obtain ⟨results', hrest, -⟩ := Except.ok_of_bind hresults
        exact ⟨⟨result, hresult⟩, results', hrest⟩
      · intro hall
        obtain ⟨⟨result, hresult⟩, results, hresults⟩ := hall
        rw [bind_of_ok hresult, bind_of_ok hresults]
        exact ⟨_, rfl⟩

/-- What holds of the records of every group, holds of those of every
capability, if it holds of no records. -/
theorem forall_byCapability {P : List GuildRecord → Prop} (hnil : P []) :
    (∀ group ∈ byCapability records, P group.2) ↔
      ∀ capability, P (ofCapability capability records) := by
  constructor
  · intro hgroups capability
    by_cases hcapability : ∃ record ∈ records, record.fingerprint.capability = capability
    · exact hgroups (capability, ofCapability capability records)
        (Assoc.mem_groupBy.mpr ⟨hcapability, rfl⟩)
    · have hnone : ofCapability capability records = [] := by
        simpa [ofCapability] using hcapability
      rw [hnone]
      exact hnil
  · intro hall group hgroup
    have hrecords : group.2 = ofCapability group.1 records := (Assoc.mem_groupBy.mp hgroup).2
    rw [hrecords]
    exact hall group.1

theorem failing_ok_iff :
    (∃ results, (byCapability records).mapM failureInsight = .ok results) ↔
      ∀ capability, Tellable Failing failureSum (ofCapability capability records) := by
  have hnil : Tellable Failing failureSum [] := by
    intro hfailing
    exact absurd hfailing (by decide)
  rw [mapM_ok_iff, ← forall_byCapability hnil]
  exact forall₂_congr fun _ _ => failureInsight_ok_iff

theorem reliable_ok_iff :
    (∃ results, (byCapability records).mapM successInsight = .ok results) ↔
      ∀ capability, Tellable Reliable successSum (ofCapability capability records) := by
  have hnil : Tellable Reliable successSum [] := by
    intro hreliable
    exact absurd hreliable (by decide)
  rw [mapM_ok_iff, ← forall_byCapability hnil]
  exact forall₂_congr fun _ _ => successInsight_ok_iff

end Meeting

namespace GuildMeetingService

variable {S : Type} {service : GuildMeetingService S} {clock : Nat → Time} {s : S}
  {records : List GuildRecord}

/-- What a meeting that reviews records reports. -/
theorem of_holdMeeting (henabled : service.config.enabled = true)
    (hlist : service.store.list .all s = .ok records) (hrecords : records ≠ [])
    {report : GuildMeetingReport} (hreport : service.holdMeeting clock s = .ok (some report)) :
    Countable records ∧ report.capabilityProfiles = capabilityProfiles records ∧
      report.roleDigests = roleDigests records ∧ report.rolesPresent = rolesPresent records := by
  unfold holdMeeting at hreport
  rw [if_pos henabled, bind_of_ok hlist] at hreport
  rw [if_neg (by simpa using hrecords)] at hreport
  obtain ⟨insights, hinsights, hreport⟩ := Except.ok_of_bind hreport
  obtain ⟨summary, hsummary, hreport⟩ := Except.ok_of_bind hreport
  obtain ⟨failing, hfailing, hinsights⟩ := Except.ok_of_bind hinsights
  obtain ⟨reliable, hreliable, -⟩ := Except.ok_of_bind hinsights
  obtain ⟨successes, hsuccesses, hsummary⟩ := Except.ok_of_bind hsummary
  obtain ⟨failures, hfailures, -⟩ := Except.ok_of_bind hsummary
  refine ⟨⟨asStr_ok_iff.mp ⟨successes, hsuccesses⟩, asStr_ok_iff.mp ⟨failures, hfailures⟩,
    failing_ok_iff.mp ⟨failing, hfailing⟩, reliable_ok_iff.mp ⟨reliable, hreliable⟩⟩, ?_⟩
  rw [← Option.some.inj (Except.ok.inj hreport)]
  exact ⟨rfl, rfl, rfl⟩

/-- A meeting whose counts can be told, returns. -/
theorem holdMeeting_returns (henabled : service.config.enabled = true)
    (hlist : service.store.list .all s = .ok records) (hrecords : records ≠ [])
    (hcountable : Countable records) :
    ∃ report, service.holdMeeting clock s = .ok (some report) := by
  obtain ⟨failing, hfailing⟩ := failing_ok_iff.mpr hcountable.failing
  obtain ⟨reliable, hreliable⟩ := reliable_ok_iff.mpr hcountable.reliable
  obtain ⟨successes, hsuccesses⟩ := asStr_ok_iff.mpr hcountable.successes
  obtain ⟨failures, hfailures⟩ := asStr_ok_iff.mpr hcountable.failures
  have hinsights : ∃ insights, crossRoleInsights records = .ok insights := by
    unfold crossRoleInsights
    rw [bind_of_ok hfailing, bind_of_ok hreliable]
    exact ⟨_, rfl⟩
  obtain ⟨insights, hinsights⟩ := hinsights
  have hsummary : ∃ summary, summaryText records insights (clock 0) = .ok summary := by
    unfold summaryText
    rw [bind_of_ok hsuccesses, bind_of_ok hfailures]
    exact ⟨_, rfl⟩
  obtain ⟨summary, hsummary⟩ := hsummary
  unfold holdMeeting
  rw [if_pos henabled, bind_of_ok hlist, if_neg (by simpa using hrecords), bind_of_ok hinsights,
    bind_of_ok hsummary]
  exact ⟨_, rfl⟩

/-- A meeting over records conserves them, unless a role has the name of the
missing one or the counts are too large to be told. -/
theorem meeting_conserves_iff (service : GuildMeetingService S) (clock : Nat → Time) (s : S)
    (henabled : service.config.enabled = true)
    (hlist : service.store.list .all s = .ok records) (hrecords : records ≠ []) :
    (∃ report, service.holdMeeting clock s = .ok (some report) ∧ Conserves records report) ↔
      (∀ record ∈ records, record.role ≠ some unassigned) ∧ Countable records := by
  constructor
  · intro hmeeting
    obtain ⟨report, hreport, hconserves⟩ := hmeeting
    obtain ⟨hcountable, -, hdigests, -⟩ := of_holdMeeting henabled hlist hrecords hreport
    refine ⟨fun record hrecord hrole => ?_, hcountable⟩
    have hconserved := hconserves.digests
    rw [hdigests] at hconserved
    exact not_conserves_unassigned hrecord hrole _ hconserved
  · intro hcondition
    obtain ⟨hroles, hcountable⟩ := hcondition
    have hreturns : ∃ report, service.holdMeeting clock s = .ok (some report) :=
      holdMeeting_returns henabled hlist hrecords hcountable
    obtain ⟨report, hreport⟩ := hreturns
    obtain ⟨-, hprofiles, hdigests, hpresent⟩ := of_holdMeeting henabled hlist hrecords hreport
    refine ⟨report, hreport, ?_, ?_⟩
    · rw [hprofiles]
      exact profiles_conserve records
    · rw [hdigests, hpresent]
      exact digests_conserve hroles

/-- An enabled guild on the store in memory. -/
def demo : GuildMeetingService MemoryGuildStore := ⟨MemoryGuildStore.operations, ⟨true, none, 1000⟩⟩

/-- A failure that an agent of this role has published. -/
def failureOf (role : String) : GuildRecord where
  fingerprint := ⟨"echo", "ValueError", "abc"⟩
  resolutionHint := none
  approachAdjustment := []
  role := some role
  project := none
  successCount := 0
  failureCount := 1
  createdAt := 0
  updatedAt := 0
  metadata := []

def storeOf (record : GuildRecord) : MemoryGuildStore := MemoryGuildStore.empty.save record

theorem list_storeOf (record : GuildRecord) :
    demo.store.list .all (storeOf record) = .ok [record] := rfl

theorem planner_conserved :
    ∃ report, demo.holdMeeting (fun _ => 0) (storeOf (failureOf "planner")) = .ok (some report) ∧
      Conserves [failureOf "planner"] report := by
  have hprintable {n : Int} (hn : n.natAbs < 10) : Printable n := Json.lt_digitLimit hn
  have hfew (capability : String) :
      successSum (ofCapability capability [failureOf "planner"]) +
        failureSum (ofCapability capability [failureOf "planner"]) < 5 := by
    by_cases hcapability : "echo" = capability
    · rw [← hcapability]
      decide
    · simp [ofCapability, failureOf, hcapability, successSum, failureSum]
  apply (meeting_conserves_iff demo (fun _ => 0) _ rfl (list_storeOf _)
    (List.cons_ne_nil _ _)).mpr
  refine ⟨by simp [failureOf, unassigned], hprintable (by decide), hprintable (by decide), ?_, ?_⟩
  · intro capability hfailing
    exact absurd hfailing.1 (not_le.mpr (hfew capability))
  · intro capability hreliable
    exact absurd hreliable.1 (not_le.mpr (hfew capability))

/-- An agent may have the role that stands for a missing one. -/
theorem unassigned_not_conserved :
    ¬ ∃ report,
      demo.holdMeeting (fun _ => 0) (storeOf (failureOf "unassigned")) = .ok (some report) ∧
        Conserves [failureOf "unassigned"] report := by
  intro hmeeting
  obtain ⟨report, hreport, hconserves⟩ := hmeeting
  obtain ⟨-, -, hdigests, -⟩ :=
    of_holdMeeting rfl (list_storeOf _) (List.cons_ne_nil _ _) hreport
  have hconserved := hconserves.digests
  rw [hdigests] at hconserved
  exact not_conserves_unassigned List.mem_cons_self rfl _ hconserved

end GuildMeetingService

end Conductor
