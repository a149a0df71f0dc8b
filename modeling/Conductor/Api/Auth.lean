/-
The authentication of requests: which of them reach a route handler, over runs
in which other processes replace the key file between the requests.
-/
import Conductor.Api.KeyFreshness

namespace Conductor

open Effects Block ApiKeyStore

/-- `s.strip()`. -/
def strip (s : String) : String :=
  String.ofList (((s.toList.dropWhile isSpace).reverse.dropWhile isSpace).reverse)

def publicPaths : List String := ["/", "/docs", "/redoc", "/openapi.json", "/v1/health"]

def pathIsPublic (path : String) : Bool :=
  publicPaths.contains path ||
    ["/docs/", "/redoc/", "/openapi.json"].any (·.toList.isPrefixOf path.toList)

/-- What the middleware reads of a request. -/
structure Request where
  path : String
  authorization : Option String

/-- The key behind `Bearer ` in the `Authorization` header. -/
def Request.bearerKey (request : Request) : Option String :=
  let header := request.authorization.getD ""
  if "Bearer ".toList.isPrefixOf header.toList then
    some (strip (String.ofList (header.toList.drop 7)))
  else none

/-- Caller identity resolved by the global auth middleware. -/
structure AuthContext where
  actor : Value
  scopes : Value

def AuthContext.new (actor scopes : Value) : AuthContext :=
  ⟨actor, scopes.orElse (.list [.str "*"])⟩

/-- A request is passed to its route handler, or answered with status 401. -/
inductive Dispatched where
  | forwarded (context : AuthContext)
  | unauthorized (message : String)

def dispatch (sha256Hex : String → String) (request : Request) : KeyBlock Dispatched := do
  let store ← object
  if !store.enabled || pathIsPublic request.path then
    pure (.forwarded (.new (.str "api") (.list [.str "*"])))
  else
    match request.bearerKey with
    | none => pure (.unauthorized "Missing or invalid Authorization header")
    | some rawKey => do
        match ← lookup sha256Hex rawKey with
        | none => pure (.unauthorized "Invalid or revoked API key")
        | some entry => pure (.forwarded (.new entry.actor entry.scopes))

/-- The response to a request that carried a key. -/
def answerTo : Option ApiKeyEntry → Dispatched
  | none => .unauthorized "Invalid or revoked API key"
  | some entry => .forwarded (.new entry.actor entry.scopes)

/-- How the middleware deals with a request. -/
inductive DispatchEnds (env : KeyEnv) (sha256Hex : String → String) (store : ApiKeyStore)
    (k : KeyConfig) (request : Request) :
    Except PyExc Dispatched → ApiKeyStore → KeyConfig → Prop
  | opened (hopen : store.enabled = false ∨ pathIsPublic request.path = true) :
      DispatchEnds env sha256Hex store k request
        (.ok (.forwarded (.new (.str "api") (.list [.str "*"])))) store k
  | keyless (henabled : store.enabled = true) (hprotected : pathIsPublic request.path = false)
      (hkey : request.bearerKey = none) :
      DispatchEnds env sha256Hex store k request
        (.ok (.unauthorized "Missing or invalid Authorization header")) store k
  | looked {rawKey : String} {outcome : Except PyExc (Option ApiKeyEntry)} {store' : ApiKeyStore}
      {k' : KeyConfig} (henabled : store.enabled = true)
      (hprotected : pathIsPublic request.path = false) (hkey : request.bearerKey = some rawKey)
      (hends : LookupEnds env store k (sha256Hex rawKey) outcome store' k') :
      DispatchEnds env sha256Hex store k request (outcome.map answerTo) store' k'

section

variable {env : KeyEnv} {sha256Hex : String → String} {store store' : ApiKeyStore}
variable {k k' : KeyConfig} {request : Request} {outcome : Except PyExc Dispatched}

theorem wp_dispatch (hpath : store.hasPath = true) :
    (dispatch sha256Hex request).wp env.logic (DispatchEnds env sha256Hex store k request)
      store k := by
  unfold dispatch
  rw [wp_bind, wp_object]
  dsimp only
  cases henabled : store.enabled with
  | false => exact .opened (.inl henabled)
  | true =>
      cases hpublic : pathIsPublic request.path with
      | true => exact .opened (.inr hpublic)
      | false =>
          rw [Bool.not_true, Bool.false_or, if_neg Bool.false_ne_true]
          cases hkey : request.bearerKey with
          | none => exact .keyless henabled hpublic hkey
          | some rawKey =>
              dsimp only
              rw [wp_bind]
              refine wp_mono env.logic_monotone ?_ (wp_lookup sha256Hex rawKey hpath)
              intro looked store' k' hends
              have hlooked := DispatchEnds.looked henabled hpublic hkey hends
              rcases looked with e | _ | entry <;> exact hlooked

theorem dispatch_ran (env : KeyEnv) (sha256Hex : String → String) (request : Request)
    (hpath : store.hasPath = true) (k : KeyConfig) :
    ∃ outcome store' k',
      ((dispatch sha256Hex request).run store).exec env.machine k =
          (some (outcome, store'), k') ∧
        DispatchEnds env sha256Hex store k request outcome store' k' := by
  have hwp : (dispatch sha256Hex request).wp env.logic
      (DispatchEnds env sha256Hex store k request) store k := wp_dispatch hpath
  obtain ⟨⟨outcome, store'⟩, k', hexec, hends⟩ := Machine.exec_of_wp hwp
  exact ⟨outcome, store', k', hexec, hends⟩

/-- The request reached its route handler. -/
def Forwarded (outcome : Except PyExc Dispatched) : Prop :=
  ∃ context, outcome = .ok (.forwarded context)

instance (outcome : Except PyExc Dispatched) : Decidable (Forwarded outcome) :=
  match outcome with
  | .ok (.forwarded context) => .isTrue ⟨context, rfl⟩
  | .ok (.unauthorized _) => .isFalse (by rintro ⟨context, ⟨⟩⟩)
  | .error _ => .isFalse (by rintro ⟨context, ⟨⟩⟩)

/-- A request without a key, or with a key that is not active here. -/
def Request.Stranger (sha256Hex : String → String) (standing : Standing) (request : Request) :
    Prop :=
  ∀ rawKey, request.bearerKey = some rawKey → ¬ standing.Active (sha256Hex rawKey)

theorem forwarded_answerTo {looked : Except PyExc (Option ApiKeyEntry)} :
    Forwarded (looked.map answerTo) ↔ Found looked := by
  rcases looked with e | _ | entry <;> simp [Forwarded, Found, Except.map, answerTo]

end

/-- Nobody else touches the file while the server is at work. -/
def KeyEnv.Calm (env : KeyEnv) : Prop := ∀ h disk, env.others h disk = disk

structure Server where
  store : ApiKeyStore
  world : KeyConfig

namespace Server

/-- The key file of the moment. -/
def disk (server : Server) : KeyDisk := server.world.state

/-- The server answers a request. -/
def answer (env : KeyEnv) (sha256Hex : String → String) (server : Server) (request : Request) :
    Option (Except PyExc Dispatched) × Server :=
  match ((dispatch sha256Hex request).run server.store).exec env.machine server.world with
  | (some (outcome, store), k) => (some outcome, ⟨store, k⟩)
  | (none, k) => (none, ⟨server.store, k⟩)

/-- Another process replaces the file. -/
def replace (server : Server) (file : KeyFile) : Server :=
  ⟨server.store, ⟨server.world.history, ⟨some file, server.disk.tmp⟩⟩⟩

/-- The request is passed to its route handler. -/
def Passes (env : KeyEnv) (sha256Hex : String → String) (server : Server) (request : Request) :
    Prop :=
  ∃ context, (server.answer env sha256Hex request).1 = some (.ok (.forwarded context))

end Server

inductive ServerStep where
  | replaced (file : KeyFile)
  | requested (request : Request)

namespace Server

def step (env : KeyEnv) (sha256Hex : String → String) (server : Server) :
    ServerStep → Server
  | .replaced file => server.replace file
  | .requested request => (server.answer env sha256Hex request).2

def run (env : KeyEnv) (sha256Hex : String → String) (server : Server)
    (steps : List ServerStep) : Server :=
  steps.foldl (step env sha256Hex) server

/-- A replacement that is newer than the file it replaces, and than the epoch. -/
def NewerFile (server : Server) (file : KeyFile) : Prop :=
  0 < file.mtime ∧ ∀ old, server.disk.file = some old → old.mtime < file.mtime

/-- Every replacement of the run puts a newer key map in place. -/
def Managed (env : KeyEnv) (sha256Hex : String → String) (server : Server) :
    List ServerStep → Prop
  | [] => True
  | step :: rest =>
      (∀ file, step = .replaced file → file.Valid ∧ server.NewerFile file) ∧
        Managed env sha256Hex (server.step env sha256Hex step) rest

/-- The store knows what the file says or will notice that it does not, and no
file that it loaded was newer than the present one. -/
structure Synchronised (server : Server) : Prop where
  hasPath : server.store.hasPath = true
  valid : server.disk.Valid
  current : (∀ keyHash, server.store.entries.standing.Active keyHash ↔
      server.disk.standing.Active keyHash) ∨
    ∃ file, server.disk.file = some file ∧ server.store.mark < file.mtime
  marked : server.store.mark = 0 ∨
    ∃ file, server.disk.file = some file ∧ server.store.mark ≤ file.mtime

end Server

section

variable {env : KeyEnv} {sha256Hex : String → String} {server : Server}
variable {store store' : ApiKeyStore} {k k' : KeyConfig}

theorem KeyEnv.Calm.writesKeyMaps (hcalm : env.Calm) : env.WritesKeyMaps := by
  intro h disk hvalid
  rw [hcalm]
  exact hvalid

theorem KeyEnv.Calm.glance (hcalm : env.Calm) : ApiKeyStore.glance env k = k.state := by
  unfold ApiKeyStore.glance
  rw [hcalm]
  dsimp only
  rw [hcalm]
  exact ite_self _

theorem KeyEnv.Calm.later (hcalm : env.Calm) {disk disk' : KeyDisk}
    (hlater : Later env disk disk') : disk' = disk := by
  induction hlater with
  | once h => exact hcalm h disk
  | more hlater h ih => rw [hcalm, ih]

/-- A reload on a file that nobody touches. -/
theorem KeyEnv.Calm.reloadEnds (hcalm : env.Calm) {outcome : Except PyExc Unit}
    (hends : ReloadEnds env store k outcome store' k') : k'.state = k.state := by
  cases hends with
  | kept hnewer hdisk hentries hmark => rw [hdisk, hcalm.glance]
  | loaded hfile hnewer hlater hload hmark hasked => rw [hcalm.later hlater, hcalm.glance]
  | failed hnewer hlater hload hmark => rw [hcalm.later hlater, hcalm.glance]

/-- A synchronised store gives an entry exactly for the active keys of the file. -/
theorem Server.Synchronised.found_iff (hcalm : env.Calm) (hsync : server.Synchronised)
    {keyHash : String} {outcome : Except PyExc (Option ApiKeyEntry)}
    (hends : LookupEnds env server.store server.world keyHash outcome store' k') :
    Found outcome ↔ server.disk.standing.Active keyHash := by
  have hstate : k'.state = server.disk := by
    obtain ⟨_, _, _, hreload, hkept, -⟩ := hends.reload
    rw [hkept.state]
    exact hcalm.reloadEnds hreload
  rw [← hstate]
  refine (hends.right_iff hcalm.writesKeyMaps hsync.valid).mpr ?_
  rw [Newer, hcalm.glance]
  rcases hsync.current with hsame | hnewer
  · exact .inr (hsame keyHash)
  · exact .inl hnewer

theorem Server.Synchronised.lookup (hcalm : env.Calm) (hsync : server.Synchronised)
    {keyHash : String} {outcome : Except PyExc (Option ApiKeyEntry)}
    (hends : LookupEnds env server.store server.world keyHash outcome store' k') :
    (Server.mk store' k').Synchronised := by
  obtain ⟨reloaded, store₁, k₁, hreload, hkept, hmark', hstanding', -⟩ := hends.reload
  have hdisk' : k'.state = server.disk := hkept.state.trans (hcalm.reloadEnds hreload)
  have hvalid : k'.state.Valid := hdisk' ▸ hsync.valid
  cases hreload with
  | kept hnewer hdisk hentries hmark =>
      refine ⟨hends.hasPath, hvalid, ?_, ?_⟩
      · simp only [Server.disk]
        rw [hdisk', hmark', hmark, hstanding', hentries]
        exact hsync.current
      · simp only [Server.disk]
        rw [hdisk', hmark', hmark]
        exact hsync.marked
  | loaded hfile hnewer hlater hload hmark hasked =>
      rw [hcalm.glance] at hfile
      refine ⟨hends.hasPath, hvalid, .inl fun keyHash => ?_, .inr ?_⟩
      · simp only [Server.disk]
        rw [hstanding', hload.standing (hkept.state ▸ hvalid), hkept.state]
      · simp only [Server.disk]
        rw [hdisk', hmark', hmark]
        exact ⟨_, hfile, Nat.le_refl _⟩
  | failed hnewer hlater hload hmark =>
      obtain ⟨file, hfile, -⟩ := hnewer
      have hmissing := hload.missing_of_error (hkept.state ▸ hvalid)
      rw [hcalm.later hlater, hfile] at hmissing
      cases hmissing

/-- The server answers every request. -/
theorem Server.answer_ends (env : KeyEnv) (sha256Hex : String → String)
    (hpath : server.store.hasPath = true) (request : Request) :
    ∃ outcome store' k', server.answer env sha256Hex request = (some outcome, ⟨store', k'⟩) ∧
      DispatchEnds env sha256Hex server.store server.world request outcome store' k' := by
  obtain ⟨outcome, store', k', hexec, hends⟩ :=
    dispatch_ran env sha256Hex request hpath server.world
  exact ⟨outcome, store', k', by rw [Server.answer, hexec], hends⟩

theorem Server.Synchronised.step (hcalm : env.Calm) (hsync : server.Synchronised)
    {step : ServerStep} (hmanaged : ∀ file, step = .replaced file →
      file.Valid ∧ server.NewerFile file) :
    (server.step env sha256Hex step).Synchronised := by
  cases step with
  | replaced file =>
      obtain ⟨hvalid, hepoch, hnewer⟩ := hmanaged file rfl
      have hmark : server.store.mark < file.mtime := by
        rcases hsync.marked with hzero | ⟨old, hold, hle⟩
        · rw [hzero]
          exact hepoch
        · exact Nat.lt_of_le_of_lt hle (hnewer old hold)
      refine ⟨hsync.hasPath, ?_, .inr ⟨file, rfl, hmark⟩, .inr ⟨file, rfl, Nat.le_of_lt hmark⟩⟩
      rintro _ ⟨⟩
      exact hvalid
  | requested request =>
      obtain ⟨outcome, store', k', hanswer, hends⟩ :=
        server.answer_ends env sha256Hex hsync.hasPath request
      rw [Server.step, hanswer]
      cases hends with
      | opened hopen => exact hsync
      | keyless henabled hprotected hkey => exact hsync
      | looked henabled hprotected hkey hlookup => exact hsync.lookup hcalm hlookup

end

section

variable {env : KeyEnv} {sha256Hex : String → String} {server : Server}

/-- While authentication is enforced, only active keys open a protected path. -/
theorem Server.Synchronised.passes_enabled (hcalm : env.Calm) (hsync : server.Synchronised)
    (henabled : server.store.enabled = true) {request : Request}
    (hprotected : pathIsPublic request.path = false) :
    server.Passes env sha256Hex request ↔
      ¬ request.Stranger sha256Hex server.disk.standing := by
  obtain ⟨outcome, store', k', hanswer, hends⟩ :=
    server.answer_ends env sha256Hex hsync.hasPath request
  have hpasses : server.Passes env sha256Hex request ↔ Forwarded outcome := by
    rw [Server.Passes, hanswer]
    simp [Forwarded]
  rw [hpasses]
  cases hends with
  | opened hopen => simp [henabled, hprotected] at hopen
  | keyless _ _ hkey =>
      have hstranger : request.Stranger sha256Hex server.disk.standing := by
        intro rawKey hsome
        rw [hkey] at hsome
        cases hsome
      exact iff_of_false (by rintro ⟨context, ⟨⟩⟩) (not_not_intro hstranger)
  | looked _ _ hkey hlookup =>
      rw [forwarded_answerTo, hsync.found_iff hcalm hlookup, Request.Stranger, hkey]
      simp

/-- Without active keys in the server's map every request passes. -/
theorem Server.passes_open (hopen : server.store.enabled = false)
    (hpath : server.store.hasPath = true) (request : Request) :
    server.Passes env sha256Hex request := by
  obtain ⟨outcome, store', k', hanswer, hends⟩ := server.answer_ends env sha256Hex hpath request
  rw [Server.Passes, hanswer]
  cases hends with
  | opened => exact ⟨_, rfl⟩
  | keyless henabled => simp [hopen] at henabled
  | looked henabled => simp [hopen] at henabled

/-- The map of the server has an active key, or the file has none. -/
def Server.Guarded (server : Server) : Prop :=
  server.store.enabled = true ∨ ¬ server.disk.standing.AnyActive

/-- A stranger is passed only where the file has no active key, exactly if the
server is guarded. -/
theorem Server.Synchronised.stranger_iff (hcalm : env.Calm) (hsync : server.Synchronised)
    {request : Request} (hprotected : pathIsPublic request.path = false)
    (hstranger : request.Stranger sha256Hex server.disk.standing) :
    (server.Passes env sha256Hex request → ¬ server.disk.standing.AnyActive) ↔
      server.Guarded := by
  cases henabled : server.store.enabled with
  | true =>
      have hrefused : ¬ server.Passes env sha256Hex request := by
        rw [hsync.passes_enabled hcalm henabled hprotected]
        exact not_not_intro hstranger
      exact iff_of_true (fun hpasses => absurd hpasses hrefused) (.inl henabled)
  | false =>
      have hpasses : server.Passes env sha256Hex request :=
        server.passes_open henabled hsync.hasPath request
      rw [Server.Guarded, henabled, or_iff_right Bool.false_ne_true]
      exact ⟨fun h => h hpasses, fun h _ => h⟩

theorem construct_synchronised (hcalm : env.Calm) {disk : KeyDisk} (hvalid : disk.Valid)
    {store : ApiKeyStore} {k : KeyConfig} (hstart : construct env disk = some (store, k)) :
    (Server.mk store k).Synchronised := by
  obtain ⟨hpath, hmark, hvalid', hstanding⟩ :=
    construct_loaded hcalm.writesKeyMaps hvalid hstart
  refine ⟨hpath, hvalid', .inl fun keyHash => ?_, .inl hmark⟩
  change store.entries.standing.Active keyHash ↔ k.state.standing.Active keyHash
  rw [hstanding]

/-- What holds of a constructed server after every run under management. -/
theorem Server.Synchronised.run (hcalm : env.Calm) (hsync : server.Synchronised)
    {before after : List ServerStep}
    (hmanaged : server.Managed env sha256Hex (before ++ after)) :
    (server.run env sha256Hex before).Synchronised := by
  induction before generalizing server with
  | nil => exact hsync
  | cons step rest ih => exact ih (hsync.step hcalm hmanaged.1) hmanaged.2

/-- A request of a stranger to a protected path follows on `before`. -/
structure Server.MeetsStranger (env : KeyEnv) (sha256Hex : String → String) (server : Server)
    (steps before : List ServerStep) (request : Request) : Prop where
  follows : before ++ [.requested request] <+: steps
  isProtected : pathIsPublic request.path = false
  stranger : request.Stranger sha256Hex (server.run env sha256Hex before).disk.standing

/-- Over every managed run of a server: strangers reach protected routes only
while the file has no active key, if and only if the server is guarded at every
request of a stranger to such a route. -/
theorem strangers_refused_iff {disk : KeyDisk} {store : ApiKeyStore} {k : KeyConfig}
    (hcalm : env.Calm) (hvalid : disk.Valid) (hstart : construct env disk = some (store, k))
    {steps : List ServerStep} (hmanaged : (Server.mk store k).Managed env sha256Hex steps) :
    (∀ before request, (Server.mk store k).MeetsStranger env sha256Hex steps before request →
      ((Server.mk store k).run env sha256Hex before).Passes env sha256Hex request →
        ¬ ((Server.mk store k).run env sha256Hex before).disk.standing.AnyActive) ↔
    ∀ before request, (Server.mk store k).MeetsStranger env sha256Hex steps before request →
      ((Server.mk store k).run env sha256Hex before).Guarded := by
  have hsync := construct_synchronised hcalm hvalid hstart
  refine forall₃_congr fun before request hmeets => ?_
  obtain ⟨⟨after, hsplit⟩, hprotected, hstranger⟩ := hmeets
  rw [← hsplit, List.append_assoc] at hmanaged
  exact (hsync.run hcalm hmanaged).stranger_iff hcalm hprotected hstranger

end

theorem calm_rewriting : (rewriting 0 id).Calm := rewriting_others

/-- A key is generated after the server was started without any, and a request
comes without a key. -/
def firstKey : List ServerStep :=
  [.replaced ⟨oneKey false, 1⟩, .requested ⟨"/v1/tasks", none⟩]

def startedEmpty : Server :=
  ⟨blank, ⟨[⟨.pathExists, .ok false⟩], ⟨none, none⟩⟩⟩

theorem firstKey_managed : startedEmpty.Managed (rewriting 0 id) id firstKey := by
  refine ⟨?_, ?_, trivial⟩
  · rintro file ⟨⟩
    exact ⟨oneKey_valid false 1, Nat.one_pos, by rintro old ⟨⟩⟩
  · rintro file ⟨⟩

theorem strangers_refused_iff_firstKey :
    (∀ before request, startedEmpty.MeetsStranger (rewriting 0 id) id firstKey before request →
      (startedEmpty.run (rewriting 0 id) id before).Passes (rewriting 0 id) id request →
        ¬ (startedEmpty.run (rewriting 0 id) id before).disk.standing.AnyActive) ↔
    ∀ before request, startedEmpty.MeetsStranger (rewriting 0 id) id firstKey before request →
      (startedEmpty.run (rewriting 0 id) id before).Guarded :=
  have hvalid : (KeyDisk.mk none none).Valid := by rintro file ⟨⟩
  strangers_refused_iff calm_rewriting hvalid rfl firstKey_managed

/-- The first key of a running server protects nothing. -/
theorem stranger_passed :
    ∃ (env : KeyEnv) (disk : KeyDisk) (store : ApiKeyStore) (k : KeyConfig)
      (steps before : List ServerStep) (request : Request),
      env.Calm ∧ disk.Valid ∧ construct env disk = some (store, k) ∧
        (Server.mk store k).Managed env id steps ∧
        (Server.mk store k).MeetsStranger env id steps before request ∧
        ((Server.mk store k).run env id before).Passes env id request ∧
        ((Server.mk store k).run env id before).disk.standing.AnyActive := by
  refine ⟨rewriting 0 id, ⟨none, none⟩, startedEmpty.store, startedEmpty.world, firstKey,
    [.replaced ⟨oneKey false, 1⟩], ⟨"/v1/tasks", none⟩, calm_rewriting, by rintro file ⟨⟩, rfl,
    firstKey_managed, ⟨List.prefix_refl _, by decide, ?_⟩, ?_, by decide +kernel⟩
  · intro rawKey hkey
    simp [Request.bearerKey] at hkey
  · exact Server.passes_open rfl rfl _

end Conductor
