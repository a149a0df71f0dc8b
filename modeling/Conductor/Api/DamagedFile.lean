/-
A key file that holds no key map: what the server makes of it, and when the
damage opens the API.
-/
import Conductor.Api.Auth

namespace Conductor

open Effects Block ApiKeyStore

/-- The entry has a prefix. -/
def hasPrefix : Value → Prop
  | .dict items => ∃ found, items.lookup "prefix" = some found
  | _ => False

/-- The text cannot be parsed as JSON, or its first entry without a prefix is an
object all the same. -/
def SwallowedText (text : String) : Prop :=
  (∃ e, Json.loads text = .error e ∧ catchesLoad e = true) ∨
    ∃ good keyHash entry rest,
      Json.loads text = .ok (.dict (good ++ (keyHash, .dict entry) :: rest)) ∧
        (∀ item ∈ good, hasPrefix item.2) ∧ ¬ hasPrefix (.dict entry)

/-- The damage is taken for a file without keys. -/
def Swallowed (content : Option String) : Prop :=
  ∃ text, content = some text ∧ SwallowedText text

theorem catchesLoad_typeError (text : String) : catchesLoad (.typeError text) = false := by
  simp [catchesLoad, PyExc.typeError, PyExc.exception]

theorem subscript_cases (data : Value) :
    (hasPrefix data ∧ ∃ found, data.subscript "prefix" = .ok found) ∨
      ¬ hasPrefix data ∧ ∃ e, data.subscript "prefix" = .error e ∧
        (catchesLoad e = true ↔ ∃ entry, data = .dict entry) := by
  cases data with
  | dict entry =>
      cases hfound : entry.lookup "prefix" with
      | some found =>
          exact .inl ⟨⟨found, hfound⟩, found, by simp only [Value.subscript, hfound]⟩
      | none =>
          refine .inr ⟨by simp [hasPrefix, hfound], .exception "KeyError" (pyRepr "prefix"),
            by simp only [Value.subscript, hfound], ?_⟩
          exact iff_of_true rfl ⟨entry, rfl⟩
  | _ =>
      refine .inr ⟨not_false, _, rfl, iff_of_false ?_ ?_⟩
      · exact ne_true_of_eq_false (catchesLoad_typeError _)
      · rintro ⟨entry, ⟨⟩⟩

/-- The first fault of a key map is at its first entry without a prefix. -/
theorem firstFault_eq_some {items : Dict} {e : PyExc} (hfault : firstFault items = some e) :
    ∃ good keyHash data rest, items = good ++ (keyHash, data) :: rest ∧
      (∀ item ∈ good, hasPrefix item.2) ∧ ¬ hasPrefix data ∧
        data.subscript "prefix" = .error e := by
  induction items with
  | nil => cases hfault
  | cons item rest ih =>
      obtain ⟨keyHash, data⟩ := item
      rw [firstFault] at hfault
      rcases subscript_cases data with ⟨hkeyed, found, hfound⟩ | ⟨hkeyed, e', herror, -⟩
      · rw [hfound] at hfault
        obtain ⟨good, keyHash', data', rest', rfl, hgood, hrest⟩ := ih hfault
        refine ⟨(keyHash, data) :: good, keyHash', data', rest', rfl, ?_, hrest⟩
        exact List.forall_mem_cons.mpr ⟨hkeyed, hgood⟩
      · rw [herror] at hfault
        cases hfault
        exact ⟨[], keyHash, data, rest, rfl, by simp, hkeyed, herror⟩

theorem firstFault_append {good : Dict} (hgood : ∀ item ∈ good, hasPrefix item.2)
    {keyHash : String} {data : Value} {rest : Dict} {e : PyExc}
    (herror : data.subscript "prefix" = .error e) :
    firstFault (good ++ (keyHash, data) :: rest) = some e := by
  induction good with
  | nil => rw [List.nil_append, firstFault, herror]
  | cons item good ih =>
      obtain ⟨hitem, hrest⟩ := List.forall_mem_cons.mp hgood
      rcases subscript_cases item.2 with ⟨-, found, hfound⟩ | ⟨hkeyed, -⟩
      · rw [List.cons_append, firstFault, hfound]
        exact ih hrest
      · exact absurd hitem hkeyed

/-- The exception that damage raises is caught exactly if it is swallowed. -/
theorem swallowed_iff {content : Option String} {e : PyExc}
    (hdamaged : readItems content = .error e) : Swallowed content ↔ catchesLoad e = true := by
  cases content with
  | none =>
      cases hdamaged
      exact iff_of_false (by rintro ⟨text, ⟨⟩, -⟩) (by decide)
  | some text =>
      have hcontent : Swallowed (some text) ↔ SwallowedText text := by
        simp [Swallowed]
      rw [hcontent, SwallowedText]
      rw [readItems] at hdamaged
      cases hloads : Json.loads text with
      | error e' =>
          simp only [hloads] at hdamaged
          cases hdamaged
          simp
      | ok data =>
          simp only [hloads] at hdamaged
          cases data with
          | dict items =>
              simp only [Value.items] at hdamaged
              cases hfault : firstFault items with
              | none =>
                  rw [hfault] at hdamaged
                  cases hdamaged
              | some e' =>
                  rw [hfault] at hdamaged
                  cases hdamaged
                  constructor
                  · rintro (⟨_, ⟨⟩, -⟩ | ⟨good, keyHash, entry, rest, hitems, hgood, hentry⟩)
                    cases hitems
                    rcases subscript_cases (.dict entry) with ⟨h, -⟩ | ⟨-, e', herror, hcaught⟩
                    · exact absurd h hentry
                    · rw [firstFault_append hgood herror] at hfault
                      cases hfault
                      exact hcaught.mpr ⟨entry, rfl⟩
                  · intro hcaught
                    obtain ⟨good, keyHash, data, rest, rfl, hgood, hdata, herror⟩ :=
                      firstFault_eq_some hfault
                    rcases subscript_cases data with ⟨h, -⟩ | ⟨-, e', herror', hdict⟩
                    · exact absurd h hdata
                    · rw [herror] at herror'
                      cases herror'
                      obtain ⟨entry, rfl⟩ := hdict.mp hcaught
                      exact .inr ⟨good, keyHash, entry, rest, rfl, hgood, hdata⟩
          | _ =>
              cases hdamaged
              refine iff_of_false ?_ ?_
              · rintro (⟨_, ⟨⟩, -⟩ | ⟨_, _, _, _, ⟨⟩, -⟩)
              · simp [catchesLoad, PyExc.exception]

section

variable {env : KeyEnv} {sha256Hex : String → String} {store store' : ApiKeyStore}
variable {k k' : KeyConfig} {file : KeyFile} {e : PyExc}

/-- A reload of a newer file that is no key map. -/
theorem reload_damaged (hcalm : env.Calm) (hfile : k.state.file = some file)
    (hnewer : store.mark < file.mtime) (hfault : readItems file.content = .error e)
    {outcome : Except PyExc Unit} (hends : ReloadEnds env store k outcome store' k') :
    (catchesLoad e = true ∧ outcome = .ok () ∧ store'.entries = []) ∨
      (catchesLoad e = false ∧ outcome = .error e ∧ store'.entries = store.entries ∧
        store'.mark = store.mark) := by
  have hstate := hcalm.reloadEnds hends
  cases hends with
  | kept hold =>
      refine absurd ⟨file, ?_, hnewer⟩ hold
      rw [hcalm.glance, hfile]
  | loaded _ _ _ hload =>
      generalize store'.entries = entries' at hload ⊢
      cases hload with
      | missing hmissing =>
          rw [hstate, hfile] at hmissing
          cases hmissing
      | read hread =>
          cases hread with
          | read hfile' hitems =>
              rw [hstate, hfile] at hfile'
              cases hfile'
              rw [hfault] at hitems
              cases hitems
      | swallowed hfile' hfault' hcaught =>
          rw [hstate, hfile] at hfile'
          cases hfile'
          rw [hfault] at hfault'
          cases hfault'
          exact .inl ⟨hcaught, rfl, rfl⟩
  | failed _ _ hload hmark =>
      generalize store'.entries = entries' at hload ⊢
      cases hload with
      | read hread hescapes =>
          cases hread with
          | vanished hmissing =>
              rw [hstate, hfile] at hmissing
              cases hmissing
          | failed hfile' hfault' =>
              rw [hstate, hfile] at hfile'
              cases hfile'
              rw [hfault] at hfault'
              cases hfault'
              exact .inr ⟨hescapes _ rfl, rfl, rfl, hmark⟩

/-- Keys are enforced exactly if one of them is active. -/
theorem enabled_iff_standing (store : ApiKeyStore) :
    store.enabled = true ↔ store.entries.standing.AnyActive := by
  simp [ApiKeyStore.enabled, ApiKeyStore.hasKeys, Standing.AnyActive, Entries.standing]

/-- The server enforces keys and has a newer, damaged file before it, which it
cannot load without raising. -/
structure Server.Shut (server : Server) (file : KeyFile) : Prop where
  hasPath : server.store.hasPath = true
  enabled : server.store.enabled = true
  present : server.disk.file = some file
  newer : server.store.mark < file.mtime

variable {server : Server}

/-- While damage escapes from the loading, the server stays shut. -/
theorem Server.Shut.answer (hcalm : env.Calm) (hshut : server.Shut file)
    (hfault : readItems file.content = .error e) (hescapes : catchesLoad e = false)
    (request : Request) :
    (server.answer env sha256Hex request).2.Shut file ∧
      (pathIsPublic request.path = false → ¬ server.Passes env sha256Hex request) := by
  obtain ⟨outcome, store', k', hanswer, hends⟩ :=
    server.answer_ends env sha256Hex hshut.hasPath request
  rw [Server.Passes, hanswer]
  cases hends with
  | opened hopen =>
      refine ⟨hshut, fun hprotected => ?_⟩
      simp [hshut.enabled, hprotected] at hopen
  | keyless => exact ⟨hshut, fun _ => by rintro ⟨context, ⟨⟩⟩⟩
  | looked _ _ _ hlookup =>
      obtain ⟨reloaded, store₁, k₁, hreload, hkept, hmark, hstanding, houtcome⟩ := hlookup.reload
      have hstate := hkept.state.trans (hcalm.reloadEnds hreload)
      rcases reload_damaged hcalm hshut.present hshut.newer hfault hreload with
        ⟨hcaught, -⟩ | ⟨-, rfl, hentries, hmark₁⟩
      · rw [hcaught] at hescapes
        cases hescapes
      · have henabled : store'.enabled = true := by
          rw [enabled_iff_standing, hstanding, hentries, ← enabled_iff_standing]
          exact hshut.enabled
        have hfile : k'.state.file = some file := by
          rw [hstate]
          exact hshut.present
        have hnewer : store'.mark < file.mtime := by
          rw [hmark, hmark₁]
          exact hshut.newer
        rw [houtcome]
        exact ⟨⟨hlookup.hasPath, henabled, hfile, hnewer⟩, fun _ => by rintro ⟨context, ⟨⟩⟩⟩

theorem Server.Shut.run (hcalm : env.Calm) (hshut : server.Shut file)
    (hfault : readItems file.content = .error e) (hescapes : catchesLoad e = false)
    (requests : List Request) :
    (server.run env sha256Hex (requests.map .requested)).Shut file := by
  induction requests generalizing server with
  | nil => exact hshut
  | cons request rest ih => exact ih (hshut.answer hcalm hfault hescapes request).1

/-- One request with a key makes the server take swallowed damage for a file
without keys. -/
theorem Server.Shut.opened (hcalm : env.Calm) (hshut : server.Shut file)
    (hfault : readItems file.content = .error e) (hcaught : catchesLoad e = true)
    {request : Request} (hprotected : pathIsPublic request.path = false)
    (hkey : request.bearerKey.isSome) :
    (server.answer env sha256Hex request).2.store.enabled = false ∧
      (server.answer env sha256Hex request).2.store.hasPath = true := by
  obtain ⟨outcome, store', k', hanswer, hends⟩ :=
    server.answer_ends env sha256Hex hshut.hasPath request
  rw [hanswer]
  cases hends with
  | opened hopen => simp [hshut.enabled, hprotected] at hopen
  | keyless _ _ hnone => simp [hnone] at hkey
  | looked _ _ _ hlookup =>
      obtain ⟨reloaded, store₁, k₁, hreload, -, -, hstanding, -⟩ := hlookup.reload
      rcases reload_damaged hcalm hshut.present hshut.newer hfault hreload with
        ⟨-, -, hentries⟩ | ⟨hescapes, -⟩
      · refine ⟨Bool.eq_false_of_not_eq_true ?_, hlookup.hasPath⟩
        rw [enabled_iff_standing, hstanding, hentries]
        exact Bool.false_ne_true
      · rw [hcaught] at hescapes
        cases hescapes

/-- A server that was started on a key map or without a file, after a managed
run. -/
def Server.Reached (env : KeyEnv) (sha256Hex : String → String) (server : Server) : Prop :=
  ∃ disk store k steps, disk.Valid ∧ construct env disk = some (store, k) ∧
    (Server.mk store k).Managed env sha256Hex steps ∧
      server = (Server.mk store k).run env sha256Hex steps

theorem Server.Reached.synchronised (hcalm : env.Calm)
    (hreached : server.Reached env sha256Hex) : server.Synchronised := by
  obtain ⟨disk, store, k, steps, hvalid, hstart, hmanaged, rfl⟩ := hreached
  rw [← List.append_nil steps] at hmanaged
  exact (construct_synchronised hcalm hvalid hstart).run hcalm hmanaged

/-- A file that is replaced by damage keeps the API closed over all later
requests, if and only if the damage is not swallowed. -/
theorem damaged_file_closed_iff (hcalm : env.Calm) (hreached : server.Reached env sha256Hex)
    (henabled : server.store.enabled = true) (hnewer : server.NewerFile file)
    (hdamaged : ¬ file.Valid) :
    (∀ (requests : List Request) (request : Request), pathIsPublic request.path = false →
      request.Stranger sha256Hex server.disk.standing →
        ¬ ((server.replace file).run env sha256Hex (requests.map .requested)).Passes env
          sha256Hex request) ↔ ¬ Swallowed file.content := by
  have hsync := hreached.synchronised hcalm
  have hmark : server.store.mark < file.mtime := by
    rcases hsync.marked with hzero | ⟨old, hold, hle⟩
    · rw [hzero]
      exact hnewer.1
    · exact Nat.lt_of_le_of_lt hle (hnewer.2 old hold)
  have hshut : (server.replace file).Shut file := ⟨hsync.hasPath, henabled, rfl, hmark⟩
  cases hfault : readItems file.content with
  | ok items => exact absurd ⟨items, hfault⟩ hdamaged
  | error e =>
      rw [swallowed_iff hfault, Bool.not_eq_true]
      constructor
      · intro hclosed
        -- A request with any key empties the map, and one without a key follows.
        cases hcaught : catchesLoad e with
        | false => rfl
        | true =>
            let withKey : Request := ⟨"/v1/tasks", some "Bearer x"⟩
            let keyless : Request := ⟨"/v1/tasks", none⟩
            let emptied := (server.replace file).run env sha256Hex ([withKey].map .requested)
            have hopened : emptied.store.enabled = false ∧ emptied.store.hasPath = true :=
              hshut.opened hcalm hfault hcaught (by decide) (by decide)
            have hpasses : emptied.Passes env sha256Hex keyless :=
              Server.passes_open hopened.1 hopened.2 keyless
            have hstranger : keyless.Stranger sha256Hex server.disk.standing := by
              intro rawKey hkey
              simp [keyless, Request.bearerKey] at hkey
            exact absurd hpasses (hclosed [withKey] keyless (by decide) hstranger)
      · intro hescapes requests request hprotected hstranger
        exact ((hshut.run hcalm hfault hescapes requests).answer hcalm hfault hescapes
          request).2 hprotected

end

/-- A file with one active key. -/
def oneActive : KeyDisk := ⟨some ⟨oneKey false, 1⟩, none⟩

/-- A check of a server that was started on a file with one active key. -/
def startedOnKey (check : Server → Bool) : Bool :=
  match construct (rewriting 0 id) oneActive with
  | some (store, k) => check ⟨store, k⟩
  | none => false

theorem started_of_check {check : Server → Bool} (hcheck : startedOnKey check = true) :
    ∃ server : Server, server.Reached (rewriting 0 id) id ∧ check server = true := by
  unfold startedOnKey at hcheck
  split at hcheck
  · rename_i store k hstart
    have hvalid : oneActive.Valid := by
      rintro file ⟨⟩
      exact oneKey_valid false 1
    exact ⟨⟨store, k⟩, ⟨oneActive, store, k, [], hvalid, hstart, trivial, rfl⟩, hcheck⟩
  · cases hcheck

/-- Keys are enforced, and the file is as old as the first tick. -/
def enforcing (server : Server) : Bool :=
  server.store.enabled && server.disk.file.all (·.mtime == 1)

theorem newerFile_of_enforcing {server : Server} (hserver : enforcing server = true)
    (content : Option String) :
    server.store.enabled = true ∧ server.NewerFile ⟨content, 2⟩ := by
  obtain ⟨henabled, hmtime⟩ := (Bool.and_eq_true _ _).mp hserver
  refine ⟨henabled, Nat.two_pos, fun old hold => ?_⟩
  rw [hold, Option.all_some, beq_iff_eq] at hmtime
  rw [hmtime]
  exact Nat.one_lt_two

theorem not_valid_of_error {content : Option String} {mtime : Mtime}
    (herror : (readItems content).toBool = false) : ¬ (KeyFile.mk content mtime).Valid := by
  rintro ⟨items, hitems⟩
  rw [show readItems content = .ok items from hitems] at herror
  cases herror

/-- Damage raises an exception that is caught. -/
def faultCaught (content : Option String) : Bool :=
  match readItems content with
  | .error e => catchesLoad e
  | .ok _ => false

/-- A list in the place of the key map keeps the API closed. -/
theorem damaged_file_closed_list : ∃ server : Server, server.Reached (rewriting 0 id) id ∧
    ∀ (requests : List Request) (request : Request), pathIsPublic request.path = false →
      request.Stranger id server.disk.standing →
        ¬ ((server.replace ⟨some "[]", 2⟩).run (rewriting 0 id) id
          (requests.map .requested)).Passes (rewriting 0 id) id request := by
  have hcheck : startedOnKey enforcing = true := by decide +kernel
  obtain ⟨server, hreached, hserver⟩ := started_of_check hcheck
  obtain ⟨henabled, hnewer⟩ := newerFile_of_enforcing hserver (some "[]")
  have hfault : (!(readItems (some "[]")).toBool && !faultCaught (some "[]")) = true := by
    decide +kernel
  obtain ⟨hdamaged, hescapes⟩ := (Bool.and_eq_true _ _).mp hfault
  rw [Bool.not_eq_true'] at hdamaged hescapes
  refine ⟨server, hreached, (damaged_file_closed_iff calm_rewriting hreached henabled hnewer
    (not_valid_of_error hdamaged)).mpr ?_⟩
  unfold faultCaught at hescapes
  cases hitems : readItems (some "[]") with
  | ok items =>
      rw [hitems] at hdamaged
      cases hdamaged
  | error e =>
      rw [hitems] at hescapes
      rw [swallowed_iff hitems]
      exact ne_true_of_eq_false hescapes

/-- A truncated file opens the API: one request with any key, then a request
without one. -/
theorem damaged_file_opens : ∃ (server : Server) (file : KeyFile) (requests : List Request)
    (request : Request),
    server.Reached (rewriting 0 id) id ∧ server.store.enabled = true ∧
      server.NewerFile file ∧ ¬ file.Valid ∧ pathIsPublic request.path = false ∧
      request.Stranger id server.disk.standing ∧
      ((server.replace file).run (rewriting 0 id) id (requests.map .requested)).Passes
        (rewriting 0 id) id request := by
  let file : KeyFile := ⟨some "\x7b\"hash\": ", 2⟩
  let requests : List Request := [⟨"/v1/tasks", some "Bearer x"⟩]
  let passesAfter (server : Server) : Bool :=
    enforcing server &&
      let opened := (server.replace file).run (rewriting 0 id) id (requests.map .requested)
      !opened.store.enabled && opened.store.hasPath
  have hcheck : startedOnKey passesAfter = true := by decide +kernel
  obtain ⟨server, hreached, hserver⟩ := started_of_check hcheck
  obtain ⟨henforcing, hopened⟩ := (Bool.and_eq_true _ _).mp hserver
  obtain ⟨hopen, hpath⟩ := (Bool.and_eq_true _ _).mp hopened
  obtain ⟨henabled, hnewer⟩ := newerFile_of_enforcing henforcing file.content
  refine ⟨server, file, requests, ⟨"/v1/tasks", none⟩, hreached, henabled, hnewer,
    not_valid_of_error (by decide +kernel), by decide, ?_, ?_⟩
  · intro rawKey hkey
    simp [Request.bearerKey] at hkey
  · exact Server.passes_open (by simpa using hopen) hpath _

end Conductor
