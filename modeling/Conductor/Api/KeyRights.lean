/-
The scopes of an API key on their way from its creation, through the key file
and the stores of any number of processes, to the check of a request.
-/
import Conductor.Api.KeyRecords

namespace Conductor

open Effects Block ApiKeyStore

/-- What a check of scopes raises. -/
inductive ScopeRefusal where
  | http (statusCode : Nat) (detail : Dict)
  | raised (e : PyExc)

/-- Raise 403 if the caller lacks the required scope. -/
def AuthContext.requireScope (context : AuthContext) (scope : String) :
    Except ScopeRefusal Unit := do
  let wildcard ← (context.scopes.hasItem "*").mapError .raised
  if !wildcard then
    let granted ← (context.scopes.hasItem scope).mapError .raised
    if !granted then
      throw (.http 403 [("code", .str "forbidden"),
        ("message", .str ("Caller '" ++ context.actor.text ++ "' lacks required scope '" ++
          scope ++ "'")),
        ("required_scope", .str scope), ("caller_scopes", context.scopes)])

theorem hasItem_strs (scopes : List String) (scope : String) :
    (Value.list (scopes.map .str)).hasItem scope = .ok (scopes.contains scope) := by
  rw [Value.hasItem, List.any_map]
  congr 1
  induction scopes with
  | nil => rfl
  | cons head tail ih =>
      rw [List.any_cons, List.contains_cons, ih, Function.comp, Value.isStr]
      congr 1
      exact Bool.beq_comm

/-- On a list of scopes the check asks for the wildcard or the scope. -/
theorem requireScope_iff (actor : Value) (scopes : List String) (scope : String) :
    (AuthContext.mk actor (.list (scopes.map .str))).requireScope scope = .ok () ↔
      "*" ∈ scopes ∨ scope ∈ scopes := by
  rw [AuthContext.requireScope]
  simp only [hasItem_strs]
  by_cases hwild : "*" ∈ scopes
  · simp [hwild, Except.mapError, bind, Except.bind, pure, Except.pure]
  · by_cases hscope : scope ∈ scopes
    · simp [hwild, hscope, Except.mapError, bind, Except.bind, pure, Except.pure]
    · simp [hwild, hscope, Except.mapError, bind, Except.bind, throw, throwThe,
        MonadExceptOf.throw]

/-- What a process does with its key store.  `opened` is the start of a process. -/
inductive KeyOp where
  | opened
  | reloaded
  | saved
  | flushed
  | looked (rawKey : String)
  | generated (actor : String) (scopes : Option (List String))
  | revoked (keyHash : String)
  | revokedPrefix (keyPrefix : String)

namespace KeyOp

def block (sha256Hex : String → String) : KeyOp → KeyBlock Unit
  | .opened => do
      mutate fun _ => blank
      load
  | .reloaded => reloadIfChanged
  | .saved => save
  | .flushed => flushUsage
  | .looked rawKey => do
      let _ ← lookup sha256Hex rawKey
  | .generated actor scopes => do
      let _ ← generate sha256Hex actor scopes
  | .revoked keyHash => do
      let _ ← revoke keyHash
  | .revokedPrefix keyPrefix => do
      let _ ← apiKeyRevoke keyPrefix

def generates : KeyOp → Bool
  | .generated _ _ => true
  | _ => false

end KeyOp

namespace Server

/-- Before any process has started, without a key file. -/
def fresh : Server := ⟨blank, ⟨[], ⟨none, none⟩⟩⟩

/-- The process of the moment calls its store. -/
def call {α : Type} (env : KeyEnv) (server : Server) (block : KeyBlock α) :
    Option (Except PyExc α) × Server :=
  match (block.run server.store).exec env.machine server.world with
  | (some (outcome, store), k) => (some outcome, ⟨store, k⟩)
  | (none, k) => (none, ⟨server.store, k⟩)

theorem call_of_wp {α : Type} {env : KeyEnv} {server : Server} {block : KeyBlock α}
    {post : Except PyExc α → ApiKeyStore → KeyConfig → Prop}
    (hwp : block.wp env.logic post server.store server.world) :
    ∃ outcome store' k', server.call env block = (some outcome, ⟨store', k'⟩) ∧
      post outcome store' k' := by
  obtain ⟨⟨outcome, store'⟩, k', hexec, hpost⟩ := Machine.exec_of_wp hwp
  exact ⟨outcome, store', k', by rw [call, hexec], hpost⟩

theorem answer_eq (env : KeyEnv) (sha256Hex : String → String) (server : Server)
    (request : Request) :
    server.answer env sha256Hex request = server.call env (dispatch sha256Hex request) := by
  rw [answer, call]
  split <;> simp_all

def op (env : KeyEnv) (sha256Hex : String → String) (server : Server) (op : KeyOp) : Server :=
  (server.call env (op.block sha256Hex)).2

/-- The processes do this one after another. -/
def ops (env : KeyEnv) (sha256Hex : String → String) (server : Server) (ops : List KeyOp) :
    Server :=
  ops.foldl (op env sha256Hex) server

/-- An assertion about the entries in memory and in the file. -/
structure Stocked (I : Entries → Prop) (server : Server) : Prop where
  hasPath : server.store.hasPath = true
  settled : server.store.entries.Settled
  cached : I server.store.entries
  saved : ∃ saved : Entries, server.disk.Reads saved ∧ saved.Settled ∧ I saved

end Server

/-- An assertion that lookups and revocations leave true. -/
structure Entries.Lasting (I : Entries → Prop) : Prop where
  used : ∀ entries keyHash now, I entries → I (Entries.modify keyHash (·.usedAt now) entries)
  withdrawn : ∀ entries keyHash, I entries → I (Entries.modify keyHash (·.withdrawn) entries)

section

variable {I : Entries → Prop} {store store' : ApiKeyStore} {saved : Entries}

/-- A reload leaves a store with settled entries that the assertion is true of. -/
theorem ApiKeyStore.Reloaded.kept' (hreload : Reloaded store saved store')
    (hpath : store.hasPath = true) (hcached : store.entries.Settled ∧ I store.entries)
    (hsaved : saved.Settled ∧ I saved) :
    store'.hasPath = true ∧ store'.entries.Settled ∧ I store'.entries := by
  cases hreload with
  | kept mark => exact ⟨hpath, hcached⟩
  | loaded mark => exact ⟨hpath, hsaved⟩

/-- What is true of both maps is true of the one that a reload leaves. -/
theorem ApiKeyStore.Reloaded.either (hreload : Reloaded store saved store')
    (hcached : I store.entries) (hsaved : I saved) : I store'.entries := by
  cases hreload with
  | kept mark => exact hcached
  | loaded mark => exact hsaved

theorem ApiKeyStore.LookedUp.kept {keyHash : String} {found? : Option ApiKeyEntry}
    (hlooked : LookedUp store saved keyHash found? store') (hI : Entries.Lasting I)
    (hpath : store.hasPath = true) (hcached : store.entries.Settled ∧ I store.entries)
    (hsaved : saved.Settled ∧ I saved) :
    store'.hasPath = true ∧ store'.entries.Settled ∧ I store'.entries := by
  cases hlooked with
  | unknown hreload _ => exact hreload.kept' hpath hcached hsaved
  | found now hreload hentry _ =>
      obtain ⟨hpath₁, hsettled₁, hI₁⟩ := hreload.kept' hpath hcached hsaved
      have hsettled' := hsettled₁.modify keyHash (f := (·.usedAt now)) (fun _ => rfl)
        fun _ hentry => hentry.usedAt now
      exact ⟨hpath₁, hsettled', hI.used _ _ _ hI₁⟩

end

namespace Server

section

variable {env : KeyEnv} {sha256Hex : String → String} {server : Server} {I : Entries → Prop}

theorem Stocked.keeps (halone : env.Alone) (hI : Entries.Lasting I) {op : KeyOp}
    (hgenerates : op.generates = true → ∀ entries keyHash entry, I entries →
      I (Entries.insert keyHash entry entries)) :
    Keeps env.logic (fun store k => (Server.mk store k).Stocked I) (op.block sha256Hex) := by
  intro store k hstocked
  obtain ⟨saved, hreads, hsaved⟩ := hstocked.saved
  have hcalm := halone.calm
  have hpath := hstocked.hasPath
  have hcached := And.intro hstocked.settled hstocked.cached
  cases op with
  | opened =>
      rw [KeyOp.block, wp_mutate_bind]
      refine wp_mono env.logic_monotone ?_ (wp_load_reads hcalm hsaved.1 hreads)
      intro outcome store' k' hload
      obtain ⟨-, hstore, hdisk⟩ := hload
      rw [hstore]
      have hreads' : k'.state.Reads saved := hdisk ▸ hreads
      exact ⟨rfl, hsaved.1, hsaved.2, saved, hreads', hsaved⟩
  | reloaded =>
      refine wp_mono env.logic_monotone ?_ (wp_reload_reads hcalm hsaved.1 hreads)
      intro outcome store' k' hreload
      obtain ⟨-, hreload, hdisk⟩ := hreload
      obtain ⟨hpath', hcached'⟩ := hreload.kept' hpath hcached hsaved
      have hreads' : k'.state.Reads saved := hdisk ▸ hreads
      exact ⟨hpath', hcached'.1, hcached'.2, saved, hreads', hsaved⟩
  | saved =>
      refine wp_mono env.logic_monotone ?_ (wp_save_reads hcalm hpath hcached.1)
      intro outcome store' k' hsave
      obtain ⟨-, hstore, hreads'⟩ := hsave
      rw [hstore]
      exact ⟨hpath, hcached.1, hcached.2, _, hreads', hcached⟩
  | flushed =>
      refine wp_mono env.logic_monotone ?_ (wp_flush_reads hcalm hpath hcached.1 hreads)
      intro outcome store' k' hflush
      obtain ⟨-, hstore, hreads'⟩ := hflush
      rw [hstore]
      refine ⟨hpath, hcached.1, hcached.2, _, hreads', ?_⟩
      split
      · exact hcached
      · exact hsaved
  | looked rawKey =>
      rw [KeyOp.block, wp_bind]
      refine wp_mono env.logic_monotone ?_
        (wp_lookup_reads hcalm hsaved.1 hreads sha256Hex rawKey)
      intro outcome store' k' hlookup
      obtain ⟨found?, houtcome, hlooked, hdisk⟩ := hlookup
      obtain ⟨hpath', hcached'⟩ := hlooked.kept hI hpath hcached hsaved
      have hreads' : k'.state.Reads saved := hdisk ▸ hreads
      rw [houtcome]
      exact ⟨hpath', hcached'.1, hcached'.2, saved, hreads', hsaved⟩
  | generated actor scopes =>
      rw [KeyOp.block, wp_bind]
      refine wp_mono env.logic_monotone ?_
        (wp_generate_reads halone hpath hcached.1 sha256Hex actor scopes)
      intro outcome store' k' hgenerate
      obtain ⟨raw, entry, -, houtcome, hentry, hstore, hreads'⟩ := hgenerate
      have hcached' := And.intro (settled_generate hcached.1 hentry)
        (hgenerates rfl _ (sha256Hex raw) entry hcached.2)
      rw [hstore] at hreads'
      rw [houtcome, hstore]
      exact ⟨hpath, hcached'.1, hcached'.2, _, hreads', hcached'⟩
  | revoked keyHash =>
      rw [KeyOp.block, wp_bind]
      refine wp_mono env.logic_monotone ?_
        (wp_revoke_reads hcalm hpath hcached.1 hreads keyHash)
      intro outcome store' k' hrevoke
      cases hentry : store.entries.lookup keyHash with
      | none =>
          rw [hentry] at hrevoke
          obtain ⟨houtcome, hstore, hreads'⟩ := hrevoke
          rw [houtcome, hstore]
          exact ⟨hpath, hcached.1, hcached.2, saved, hreads', hsaved⟩
      | some entry =>
          rw [hentry] at hrevoke
          obtain ⟨houtcome, hstore, hreads'⟩ := hrevoke
          have hcached' := And.intro
            (hcached.1.modify keyHash (f := (·.withdrawn)) (fun _ => rfl)
              fun _ hentry => hentry.withdrawn)
            (hI.withdrawn _ keyHash hcached.2)
          rw [hstore] at hreads'
          rw [houtcome, hstore]
          exact ⟨hpath, hcached'.1, hcached'.2, _, hreads', hcached'⟩

  | revokedPrefix keyPrefix =>
      rw [KeyOp.block, wp_bind]
      refine wp_mono env.logic_monotone ?_ (wp_apiKeyRevoke_reads hcalm hsaved.1 hreads keyPrefix)
      intro outcome store' k' hrevoke
      obtain ⟨hpath', hrevoke⟩ := hrevoke
      cases hfind : findByPrefix keyPrefix saved with
      | none =>
          rw [hfind] at hrevoke
          obtain ⟨houtcome, hentries, hreads'⟩ := hrevoke
          rw [houtcome]
          exact ⟨hpath', hentries ▸ hsaved.1, hentries ▸ hsaved.2, saved, hreads', hsaved⟩
      | some entry =>
          rw [hfind] at hrevoke
          obtain ⟨houtcome, hentries, hreads'⟩ := hrevoke
          have hcached' := And.intro
            (hsaved.1.modify entry.keyHash (f := (·.withdrawn)) (fun _ => rfl)
              fun _ hentry => hentry.withdrawn)
            (hI.withdrawn _ entry.keyHash hsaved.2)
          rw [← hentries] at hcached'
          rw [houtcome]
          exact ⟨hpath', hcached'.1, hcached'.2, _, hreads', hcached'⟩

/-- The assertion stays true through an operation; a generated key needs it to be
true of the entries that the key is put into. -/
theorem Stocked.op (halone : env.Alone) (hI : Entries.Lasting I) (hstocked : server.Stocked I)
    {op : KeyOp} (hgenerates : op.generates = true → ∀ entries keyHash entry, I entries →
      I (Entries.insert keyHash entry entries)) : (server.op env sha256Hex op).Stocked I := by
  obtain ⟨outcome, store', k', hcall, hstocked'⟩ :=
    call_of_wp (Stocked.keeps halone hI hgenerates hstocked)
  rw [Server.op, hcall]
  exact hstocked'

/-- The same through any number of operations that generate no key. -/
theorem Stocked.ops (halone : env.Alone) (hI : Entries.Lasting I) {ops : List KeyOp}
    (hkeep : ∀ op ∈ ops, op.generates = true → ∀ entries keyHash entry, I entries →
      I (Entries.insert keyHash entry entries)) (hstocked : server.Stocked I) :
    (server.ops env sha256Hex ops).Stocked I := by
  induction ops generalizing server with
  | nil => exact hstocked
  | cons op rest ih =>
      exact ih (fun op hmem => hkeep op (List.mem_cons_of_mem _ hmem))
        (hstocked.op halone hI (hkeep op List.mem_cons_self))

end

theorem fresh_stocked : fresh.Stocked fun _ => True :=
  ⟨rfl, Entries.settled_nil, trivial, [], rfl, Entries.settled_nil, trivial⟩

/-- Whatever was done, memory and file hold settled entries. -/
theorem ops_stocked {env : KeyEnv} (halone : env.Alone) (sha256Hex : String → String)
    (ops : List KeyOp) : (fresh.ops env sha256Hex ops).Stocked fun _ => True :=
  fresh_stocked.ops halone ⟨fun _ _ _ _ => trivial, fun _ _ _ => trivial⟩
    fun _ _ _ _ _ _ _ => trivial

end Server

/-- This is true of the key with this hash. -/
def Entries.Has (keyHash : String) (Q : ApiKeyEntry → Prop) (entries : Entries) : Prop :=
  ∃ entry, entries.lookup keyHash = some entry ∧ Q entry

theorem Entries.Has.modify {keyHash other : String} {Q : ApiKeyEntry → Prop}
    {entries : Entries} (hhas : entries.Has keyHash Q) {f : ApiKeyEntry → ApiKeyEntry}
    (hf : ∀ entry, Q entry → Q (f entry)) : (Entries.modify other f entries).Has keyHash Q := by
  obtain ⟨entry, hentry, hQ⟩ := hhas
  rw [Entries.Has, Entries.lookup_modify, hentry]
  refine ⟨_, rfl, ?_⟩
  split
  · exact hf entry hQ
  · exact hQ

/-- The key was made for this actor and has these scopes. -/
def ApiKeyEntry.Grants (actor : String) (scopes : List String) (entry : ApiKeyEntry) : Prop :=
  entry.actor = .str actor ∧ entry.scopes = .list (scopes.map .str)

theorem Entries.grants_lasting (keyHash actor : String) (scopes : List String) :
    Entries.Lasting (Entries.Has keyHash (·.Grants actor scopes)) :=
  ⟨fun _ _ _ hhas => hhas.modify fun _ hgrants => hgrants,
    fun _ _ hhas => hhas.modify fun _ hgrants => hgrants⟩

section

variable {env : KeyEnv} {sha256Hex : String → String} {server server' : Server}
variable {I J : Entries → Prop}

theorem Server.Stocked.imp (hstocked : server.Stocked I) (himp : ∀ entries, I entries → J entries) :
    server.Stocked J := by
  obtain ⟨saved, hreads, hsettled, hsaved⟩ := hstocked.saved
  exact ⟨hstocked.hasPath, hstocked.settled, himp _ hstocked.cached, saved, hreads, hsettled,
    himp _ hsaved⟩

/-- The new key is in memory and in the file. -/
theorem Server.Stocked.generate (halone : env.Alone) (hstocked : server.Stocked I)
    {actor raw : String} {scopes : Option (List String)} {entry : ApiKeyEntry}
    (hgenerated : server.call env (ApiKeyStore.generate sha256Hex actor scopes) =
      (some (.ok (raw, entry)), server')) :
    (∃ createdAt, entry = newEntry (sha256Hex raw) raw actor scopes createdAt) ∧
      server'.Stocked (Entries.Has (sha256Hex raw) (· = entry)) := by
  obtain ⟨outcome, store', k', hcall, raw', entry', -, houtcome, hentry, hstore, hreads⟩ :=
    call_of_wp (wp_generate_reads halone hstocked.hasPath hstocked.settled sha256Hex actor scopes)
  rw [hgenerated, houtcome] at hcall
  cases hcall
  have hsettled := settled_generate hstocked.settled hentry
  have hhas : (server.store.entries.insert (sha256Hex raw) entry).Has (sha256Hex raw)
      (· = entry) := by
    rw [Entries.Has, Entries.insert_eq, Assoc.lookup_insert, if_pos rfl]
    exact ⟨_, rfl, rfl⟩
  obtain ⟨createdAt, -, hnew⟩ := hentry
  rw [hstore] at hreads ⊢
  exact ⟨⟨createdAt, hnew⟩, hstocked.hasPath, hsettled, hhas, _, hreads, hsettled, hhas⟩

/-- How the middleware answers a request that carries a key, from what the store
looks up. -/
theorem wp_dispatch_reads (hcalm : env.Calm) {store : ApiKeyStore} {k : KeyConfig}
    {saved : Entries} (hsaved : saved.Settled) (hreads : k.state.Reads saved)
    (henabled : store.enabled = true) {request : Request} {rawKey : String}
    (hprotected : pathIsPublic request.path = false) (hkey : request.bearerKey = some rawKey) :
    (dispatch sha256Hex request).wp env.logic (fun outcome store' _ => ∃ found?,
      outcome = .ok (answerTo found?) ∧ LookedUp store saved (sha256Hex rawKey) found? store')
      store k := by
  unfold dispatch
  rw [wp_bind, wp_object]
  dsimp only
  rw [henabled, hprotected, Bool.not_true, Bool.false_or, if_neg Bool.false_ne_true, hkey]
  dsimp only
  rw [wp_bind]
  refine wp_mono env.logic_monotone ?_ (wp_lookup_reads hcalm hsaved hreads sha256Hex rawKey)
  intro outcome store' k' hlookup
  obtain ⟨found?, houtcome, hlooked, -⟩ := hlookup
  rw [houtcome]
  cases found? with
  | none => exact ⟨none, rfl, hlooked⟩
  | some entry => exact ⟨some entry, rfl, hlooked⟩

/-- The holder of an active key is let in. -/
theorem Server.Stocked.admitted (hcalm : env.Calm) {rawKey : String}
    (hstocked : server.Stocked (Entries.Has (sha256Hex rawKey) (·.active = true)))
    {request : Request} (hprotected : pathIsPublic request.path = false)
    (hkey : request.bearerKey = some rawKey) :
    server.store.enabled = true ∧
      ∃ context, (server.answer env sha256Hex request).1 = some (.ok (.forwarded context)) := by
  obtain ⟨saved, hreads, hsaved, hactive⟩ := hstocked.saved
  have henabled : server.store.enabled = true := by
    obtain ⟨entry, hentry, hactive⟩ := hstocked.cached
    exact List.any_eq_true.mpr ⟨_, Assoc.mem_of_lookup hentry, hactive⟩
  obtain ⟨outcome, store', k', hcall, found?, houtcome, hlooked⟩ := call_of_wp
    (wp_dispatch_reads hcalm hsaved hreads henabled hprotected hkey)
  rw [Server.answer_eq, hcall, houtcome]
  cases hlooked with
  | unknown hreload hinactive =>
      obtain ⟨entry, hentry, hactive⟩ := hreload.either hstocked.cached hactive
      rw [hinactive entry hentry] at hactive
      cases hactive
  | found now hreload hentry hactive => exact ⟨henabled, _, rfl⟩

/-- The identity that the middleware gives the holder of a key. -/
theorem Server.Stocked.context (hcalm : env.Calm) {rawKey actor : String} {granted : List String}
    (hne : granted ≠ [])
    (hstocked : server.Stocked (Entries.Has (sha256Hex rawKey) (·.Grants actor granted)))
    (henabled : server.store.enabled = true) {request : Request} {context : AuthContext}
    (hprotected : pathIsPublic request.path = false) (hkey : request.bearerKey = some rawKey)
    (hanswer : (server.answer env sha256Hex request).1 = some (.ok (.forwarded context))) :
    context = ⟨.str actor, .list (granted.map .str)⟩ := by
  obtain ⟨saved, hreads, hsaved, hgrants⟩ := hstocked.saved
  obtain ⟨outcome, store', k', hcall, found?, houtcome, hlooked⟩ := call_of_wp
    (wp_dispatch_reads hcalm hsaved hreads henabled hprotected hkey)
  rw [Server.answer_eq, hcall, houtcome] at hanswer
  cases hlooked with
  | unknown hreload hinactive => cases hanswer
  | @found store₁ entry now hreload hentry hactive =>
      obtain ⟨entry', hentry', hactor, hscopes⟩ := hreload.either hstocked.cached hgrants
      rw [hentry] at hentry'
      cases hentry'
      cases hanswer
      have hscopes' : (entry.usedAt now).scopes.orElse (.list [.str "*"]) =
          .list (granted.map .str) := by
        change entry.scopes.orElse _ = _
        rw [hscopes]
        exact if_pos (truthy_strs hne)
      have hactor' : (entry.usedAt now).actor = .str actor := hactor
      rw [AuthContext.new, hscopes', hactor']

/-- The identity of a key's holder, whatever was done since the key was generated. -/
theorem Server.context_of_key (halone : env.Alone) (sha256Hex : String → String)
    (before after : List KeyOp) (hafter : ∀ op ∈ after, op.generates = false)
    {actor raw : String} {scopes : Option (List String)} {entry : ApiKeyEntry} {request : Request}
    {context : AuthContext}
    (hgenerated : (Server.fresh.ops env sha256Hex before).call env
      (ApiKeyStore.generate sha256Hex actor scopes) = (some (.ok (raw, entry)), server))
    (henabled : (server.ops env sha256Hex after).store.enabled = true)
    (hprotected : pathIsPublic request.path = false) (hkey : request.bearerKey = some raw)
    (hanswer : ((server.ops env sha256Hex after).answer env sha256Hex request).1 =
      some (.ok (.forwarded context))) :
    context = ⟨.str actor, .list ((grantedScopes scopes).map .str)⟩ := by
  obtain ⟨⟨createdAt, hentry⟩, hhas⟩ :=
    (Server.ops_stocked halone sha256Hex before).generate halone hgenerated
  have hgrants : server.Stocked
      (Entries.Has (sha256Hex raw) (·.Grants actor (grantedScopes scopes))) := by
    apply hhas.imp
    intro entries hhas
    obtain ⟨entry', hlookup, hsame⟩ := hhas
    rw [hsame, hentry] at hlookup
    exact ⟨_, hlookup, rfl, rfl⟩
  have hkeep : ∀ op ∈ after, op.generates = true → ∀ entries keyHash entry,
      Entries.Has (sha256Hex raw) (·.Grants actor (grantedScopes scopes)) entries →
        Entries.Has (sha256Hex raw) (·.Grants actor (grantedScopes scopes))
          (Entries.insert keyHash entry entries) := by
    intro op hmem hgenerates
    rw [hafter op hmem] at hgenerates
    cases hgenerates
  have hgrants' : (server.ops env sha256Hex after).Stocked _ :=
    hgrants.ops halone (Entries.grants_lasting _ _ _) hkeep
  exact hgrants'.context halone.calm (grantedScopes_ne_nil _) henabled hprotected hkey hanswer

/-- A key has just the rights that were asked for it, unless none were. -/
theorem scopes_survive_iff (halone : env.Alone) (sha256Hex : String → String)
    (before after : List KeyOp) (hafter : ∀ op ∈ after, op.generates = false)
    {actor raw : String} {scopes : List String} {entry : ApiKeyEntry} {request : Request}
    {context : AuthContext}
    (hgenerated : (Server.fresh.ops env sha256Hex before).call env
      (generate sha256Hex actor (some scopes)) = (some (.ok (raw, entry)), server))
    (henabled : (server.ops env sha256Hex after).store.enabled = true)
    (hprotected : pathIsPublic request.path = false) (hkey : request.bearerKey = some raw)
    (hanswer : ((server.ops env sha256Hex after).answer env sha256Hex request).1 =
      some (.ok (.forwarded context))) (scope : String) :
    (context.requireScope scope = .ok () ↔ "*" ∈ scopes ∨ scope ∈ scopes) ↔ scopes ≠ [] := by
  have hcontext := Server.context_of_key halone sha256Hex before after hafter
    hgenerated henabled hprotected hkey hanswer
  rw [hcontext, requireScope_iff]
  cases scopes with
  | nil => simp [grantedScopes]
  | cons first rest => simp [grantedScopes]

/-- A key that was just generated lets its holder in. -/
theorem Server.admits_new (halone : env.Alone) (sha256Hex : String → String) (actor : String)
    (scopes : Option (List String)) (request : Request)
    (hprotected : pathIsPublic request.path = false)
    (hkey : request.bearerKey = some (nextKey env Server.fresh.world)) :
    ∃ entry server context, Server.fresh.call env (ApiKeyStore.generate sha256Hex actor scopes) =
        (some (.ok (nextKey env Server.fresh.world, entry)), server) ∧
      server.store.enabled = true ∧
        (server.answer env sha256Hex request).1 = some (.ok (.forwarded context)) := by
  obtain ⟨outcome, store', k', hcall, raw, entry, hraw, houtcome, -⟩ := call_of_wp
    (wp_generate_reads halone Server.fresh_stocked.hasPath Server.fresh_stocked.settled
      sha256Hex actor scopes)
  rw [houtcome, hraw] at hcall
  obtain ⟨⟨createdAt, hentry⟩, hhas⟩ := Server.fresh_stocked.generate halone hcall
  have hactive : (Server.mk store' k').Stocked
      (Entries.Has (sha256Hex (nextKey env Server.fresh.world)) (·.active = true)) := by
    apply hhas.imp
    intro entries hhas
    obtain ⟨entry', hlookup, hsame⟩ := hhas
    rw [hsame, hentry] at hlookup
    exact ⟨_, hlookup, rfl⟩
  obtain ⟨henabled, context, hanswer⟩ := hactive.admitted halone.calm hprotected hkey
  exact ⟨entry, ⟨store', k'⟩, context, hcall, henabled, hanswer⟩

end

/-- One process on a disk of its own. -/
def keyDesk : KeyEnv where
  others _ disk := disk
  nowIso _ := "2026-06-17T12:00:00+00:00"
  tokenHex _ := "secret"
  mtime _ := 1

theorem keyDesk_alone : keyDesk.Alone where
  calm _ _ := rfl
  dated _ := show "2026-06-17T12:00:00+00:00" ≠ "" by decide

def keyHolder : Request := ⟨"/v1/tasks", some "Bearer cond_secret"⟩

/-- A reader may not write. -/
theorem scopes_survive_iff_reader :
    ∃ context : AuthContext, (context.requireScope "task:write" = .ok () ↔
      "*" ∈ ["task:read"] ∨ "task:write" ∈ ["task:read"]) ↔ ["task:read"] ≠ [] := by
  obtain ⟨entry, server, context, hgenerated, henabled, hanswer⟩ :=
    Server.admits_new keyDesk_alone id "bot" (some ["task:read"]) keyHolder (by decide)
      (by decide +kernel)
  exact ⟨context, scopes_survive_iff keyDesk_alone id [] [] (by simp) hgenerated henabled
    (by decide) (by decide +kernel) hanswer "task:write"⟩

/-- A key that was made for nothing opens everything. -/
theorem no_scopes_widened : ¬ ∀ (env : KeyEnv) (_ : env.Alone) (sha256Hex : String → String)
    (before after : List KeyOp) (_ : ∀ op ∈ after, op.generates = false) (actor raw : String)
    (scopes : List String) (entry : ApiKeyEntry) (server : Server) (request : Request)
    (context : AuthContext),
    (Server.fresh.ops env sha256Hex before).call env
      (generate sha256Hex actor (some scopes)) = (some (.ok (raw, entry)), server) →
    (server.ops env sha256Hex after).store.enabled = true →
    pathIsPublic request.path = false → request.bearerKey = some raw →
    ((server.ops env sha256Hex after).answer env sha256Hex request).1 =
      some (.ok (.forwarded context)) →
    ∀ scope, context.requireScope scope = .ok () ↔ "*" ∈ scopes ∨ scope ∈ scopes := by
  intro hall
  obtain ⟨entry, server, context, hgenerated, henabled, hanswer⟩ :=
    Server.admits_new keyDesk_alone id "bot" (some []) keyHolder (by decide) (by decide +kernel)
  have hscope := hall keyDesk keyDesk_alone id [] [] (by simp) "bot" _ [] entry server keyHolder
    context hgenerated henabled (by decide) (by decide +kernel) hanswer "task:write"
  have hcontext := Server.context_of_key keyDesk_alone id [] [] (by simp) hgenerated
    henabled (by decide) (by decide +kernel) hanswer
  rw [hcontext, requireScope_iff] at hscope
  revert hscope
  decide

end Conductor
