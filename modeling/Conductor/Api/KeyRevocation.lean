/-
Revoking a key by its prefix.  Prefixes may collide, and the search for one stops
at the first entry that has it, whether or not that is revoked already.
-/
import Conductor.Api.KeyRights

namespace Conductor

open Effects Block ApiKeyStore

def carriesPrefix (keyPrefix : String) (item : String × Value) : Bool :=
  (item.2.get "prefix" .none).isStr keyPrefix

def isActive (item : String × Value) : Bool := !(item.2.get "revoked" (.bool false)).truthy

/-- No key of this prefix is active any more, and the keys of the other prefixes
are as they were. -/
structure RevokesAll (keyPrefix : String) (before after : KeyDisk) : Prop where
  revoked : ∀ item ∈ after.items, carriesPrefix keyPrefix item = true → isActive item = false
  others : after.items.filter (fun item => !carriesPrefix keyPrefix item) =
    before.items.filter fun item => !carriesPrefix keyPrefix item

section

variable {entries before after : Entries} {keyPrefix : String} {entry : ApiKeyEntry}

theorem Entries.modify_of_forall {keyHash : String} {f : ApiKeyEntry → ApiKeyEntry}
    (hother : ∀ item ∈ entries, item.1 ≠ keyHash) : Entries.modify keyHash f entries = entries := by
  conv_rhs => rw [← List.map_id entries]
  apply List.map_congr_left
  intro item hmem
  rw [if_neg (hother item hmem), id]

/-- A change of one entry of a dict. -/
theorem Entries.modify_middle {keyHash : String} (f : ApiKeyEntry → ApiKeyEntry)
    (hnodup : (Assoc.keys (before ++ (keyHash, entry) :: after)).Nodup) :
    Entries.modify keyHash f (before ++ (keyHash, entry) :: after) =
      before ++ (keyHash, f entry) :: after := by
  have hkeys : keyHash ∉ Assoc.keys (before ++ after) := by
    rw [Assoc.keys, List.map_append, List.map_cons] at hnodup
    rw [Assoc.keys, List.map_append]
    exact (List.nodup_middle.mp hnodup).notMem
  have hother : ∀ item ∈ before ++ after, item.1 ≠ keyHash := by
    intro item hmem heq
    rw [← heq] at hkeys
    exact hkeys (Assoc.mem_keys_of_mem hmem)
  have hbefore := Entries.modify_of_forall (f := f) fun item hmem =>
    hother item (List.mem_append_left _ hmem)
  have hafter := Entries.modify_of_forall (f := f) fun item hmem =>
    hother item (List.mem_append_right _ hmem)
  rw [Entries.modify, List.map_append, List.map_cons, if_pos rfl]
  exact congrArg₂ (fun before after => before ++ (keyHash, f entry) :: after) hbefore hafter

/-- The entry that is found, with those before and behind it. -/
theorem split_of_findByPrefix (hsettled : entries.Settled)
    (hfind : findByPrefix keyPrefix entries = some entry) :
    ∃ before after, entries = before ++ (entry.keyHash, entry) :: after ∧
      entry.keyPrefix.isStr keyPrefix = true ∧
        ∀ item ∈ before, item.2.keyPrefix.isStr keyPrefix = false := by
  obtain ⟨item, hitem, hentry⟩ := Option.map_eq_some_iff.mp hfind
  obtain ⟨hlead, before, after, hsplit, hbefore⟩ := List.find?_eq_some_iff_append.mp hitem
  have hmem := List.mem_of_find?_eq_some hitem
  have hown := hsettled.own item hmem
  rw [hentry] at hown hlead
  refine ⟨before, after, ?_, hlead, fun other hother => by simpa using hbefore other hother⟩
  rw [hsplit, hown, ← hentry]

theorem carriesPrefix_toDict (item : String × ApiKeyEntry) :
    carriesPrefix keyPrefix (item.1, item.2.toDict) = item.2.keyPrefix.isStr keyPrefix := rfl

/-- The items of the prefix are those that its first entry heads. -/
theorem filter_carriesPrefix (hlead : entry.keyPrefix.isStr keyPrefix = true)
    (hbefore : ∀ item ∈ before, item.2.keyPrefix.isStr keyPrefix = false) (keyHash : String) :
    (Entries.toDict (before ++ (keyHash, entry) :: after)).filter (carriesPrefix keyPrefix) =
      (keyHash, entry.toDict) :: after.toDict.filter (carriesPrefix keyPrefix) := by
  have hnone : (Entries.toDict before).filter (carriesPrefix keyPrefix) = [] := by
    apply List.filter_eq_nil_iff.mpr
    intro item hmem
    obtain ⟨old, hold, heq⟩ := List.mem_map.mp hmem
    rw [← heq, carriesPrefix_toDict, hbefore old hold]
    exact Bool.false_ne_true
  have hhead : carriesPrefix keyPrefix (keyHash, entry.toDict) = true := hlead
  rw [Entries.toDict, List.map_append, List.map_cons, List.filter_append,
    List.filter_cons_of_pos hhead]
  exact congrArg (· ++ _) hnone

theorem filter_carriesPrefix_nil (hfind : findByPrefix keyPrefix entries = none) :
    entries.toDict.filter (carriesPrefix keyPrefix) = [] := by
  have hnone := List.find?_eq_none.mp (Option.map_eq_none_iff.mp hfind)
  apply List.filter_eq_nil_iff.mpr
  intro item hmem
  obtain ⟨old, hold, heq⟩ := List.mem_map.mp hmem
  rw [← heq, carriesPrefix_toDict]
  exact hnone old hold

/-- The items of the other prefixes are those around its first entry. -/
theorem filter_not_carriesPrefix (hlead : entry.keyPrefix.isStr keyPrefix = true)
    (keyHash : String) :
    (Entries.toDict (before ++ (keyHash, entry) :: after)).filter
        (fun item => !carriesPrefix keyPrefix item) =
      (Entries.toDict before ++ Entries.toDict after).filter
        fun item => !carriesPrefix keyPrefix item := by
  have hhead : ¬ (!carriesPrefix keyPrefix (keyHash, entry.toDict)) = true := by
    rw [carriesPrefix_toDict (keyHash, entry), hlead]
    exact Bool.false_ne_true
  rw [Entries.toDict, List.map_append, List.map_cons, List.filter_append,
    List.filter_cons_of_neg (p := fun item => !carriesPrefix keyPrefix item) hhead,
    List.filter_append]
  rfl

/-- Revoking the entry that is found revokes all of its prefix just where the
others that have it are revoked already. -/
theorem revokesAll_iff (hsettled : entries.Settled)
    (hfind : findByPrefix keyPrefix entries = some entry) {disk disk' : KeyDisk}
    (hreads : disk.Reads entries)
    (hreads' : disk'.Reads (entries.modify entry.keyHash (·.withdrawn))) :
    RevokesAll keyPrefix disk disk' ↔
      ∀ item ∈ (disk.items.filter (carriesPrefix keyPrefix)).tail, isActive item = false := by
  obtain ⟨before, after, hsplit, hlead, hbefore⟩ := split_of_findByPrefix hsettled hfind
  have hnodup := hsettled.nodup
  rw [hsplit] at hnodup
  have hitems := items_of_reads hreads
  have hitems' := items_of_reads hreads'
  rw [hsplit] at hitems hitems'
  rw [Entries.modify_middle _ hnodup] at hitems'
  rw [hitems, filter_carriesPrefix hlead hbefore, List.tail_cons]
  constructor
  · intro hrevokes item hmem
    obtain ⟨hafter, hhas⟩ := List.mem_filter.mp hmem
    apply hrevokes.revoked item _ hhas
    rw [hitems', Entries.toDict, List.map_append]
    exact List.mem_append_right _ (List.mem_cons_of_mem _ hafter)
  · intro hrevoked
    constructor
    · intro item hmem hhas
      rw [hitems'] at hmem
      have hmem' := List.mem_filter.mpr ⟨hmem, hhas⟩
      have hwithdrawn : entry.withdrawn.keyPrefix.isStr keyPrefix = true := hlead
      rw [filter_carriesPrefix hwithdrawn hbefore] at hmem'
      rcases List.mem_cons.mp hmem' with heq | hmem'
      · rw [heq]
        rfl
      · exact hrevoked item hmem'
    · have hwithdrawn : entry.withdrawn.keyPrefix.isStr keyPrefix = true := hlead
      rw [hitems', hitems, filter_not_carriesPrefix hlead,
        filter_not_carriesPrefix hwithdrawn]

end

/-- A revocation through a server that reads settled entries. -/
theorem Server.revokes_iff {env : KeyEnv} (halone : env.Alone) (keyPrefix : String)
    {server : Server} {saved : Entries} (hsaved : saved.Settled)
    (hreads : server.disk.Reads saved) :
    ((server.call env (apiKeyRevoke keyPrefix)).1 = some (.ok 0) →
      RevokesAll keyPrefix server.disk (server.call env (apiKeyRevoke keyPrefix)).2.disk) ↔
    ∀ item ∈ (server.disk.items.filter (carriesPrefix keyPrefix)).tail,
      isActive item = false := by
  have hwp : (apiKeyRevoke keyPrefix).wp env.logic _ server.store server.world :=
    wp_apiKeyRevoke_reads halone.calm hsaved hreads keyPrefix
  obtain ⟨outcome, store', k', hcall, hpath, hrevoke⟩ := Server.call_of_wp hwp
  rw [hcall]
  cases hfind : findByPrefix keyPrefix saved with
  | none =>
      simp only [hfind] at hrevoke
      rw [hrevoke.1, items_of_reads hreads, filter_carriesPrefix_nil hfind]
      constructor
      · exact fun _ item hmem => nomatch hmem
      · exact fun _ hexit => nomatch hexit
  | some entry =>
      simp only [hfind] at hrevoke
      obtain ⟨houtcome, hentries, hreads'⟩ := hrevoke
      rw [hentries] at hreads'
      rw [houtcome, ← revokesAll_iff hsaved hfind hreads hreads']
      exact forall_prop_of_true rfl

/-- Over every history of the key file: a revocation that reports success leaves
no active key of the prefix, just where the entries that have the prefix, but for
the first of them, were revoked before. -/
theorem revokes_all_iff {env : KeyEnv} (halone : env.Alone) (sha256Hex : String → String)
    (ops : List KeyOp) (keyPrefix : String) :
    (((Server.fresh.ops env sha256Hex ops).call env (apiKeyRevoke keyPrefix)).1 =
        some (.ok 0) →
      RevokesAll keyPrefix (Server.fresh.ops env sha256Hex ops).disk
        ((Server.fresh.ops env sha256Hex ops).call env (apiKeyRevoke keyPrefix)).2.disk) ↔
    ∀ item ∈ ((Server.fresh.ops env sha256Hex ops).disk.items.filter
      (carriesPrefix keyPrefix)).tail, isActive item = false := by
  obtain ⟨saved, hreads, hsaved, -⟩ := (Server.ops_stocked halone sha256Hex ops).saved
  exact Server.revokes_iff halone keyPrefix hsaved hreads

/-- A process that has just generated a key has the entries of the file. -/
theorem Server.op_generated_reads {env : KeyEnv} (halone : env.Alone)
    (sha256Hex : String → String) {server : Server} {I : Entries → Prop}
    (hstocked : server.Stocked I) (actor : String) (scopes : Option (List String)) :
    (server.op env sha256Hex (.generated actor scopes)).disk.Reads
      (server.op env sha256Hex (.generated actor scopes)).store.entries := by
  have hblock : (KeyOp.block sha256Hex (.generated actor scopes)).wp env.logic
      (fun _ store' k' => k'.state.Reads store'.entries) server.store server.world := by
    rw [KeyOp.block, wp_bind]
    refine wp_mono env.logic_monotone ?_
      (wp_generate_reads halone hstocked.hasPath hstocked.settled sha256Hex actor scopes)
    intro outcome store' k' hgenerate
    obtain ⟨raw, entry, -, houtcome, -, -, hreads⟩ := hgenerate
    rw [houtcome]
    exact hreads
  obtain ⟨outcome, store', k', hcall, hreads⟩ := Server.call_of_wp hblock
  rw [Server.op, hcall]
  exact hreads

def oneBot : List KeyOp := [.generated "bot" none]

/-- The only key of its prefix. -/
theorem revokes_all_iff_bot :
    (∀ item ∈ ((Server.fresh.ops keyDesk id oneBot).disk.items.filter
        (carriesPrefix "cond_secret")).tail, isActive item = false) ∧
      (((Server.fresh.ops keyDesk id oneBot).call keyDesk (apiKeyRevoke "cond_secret")).1 =
          some (.ok 0) →
        RevokesAll "cond_secret" (Server.fresh.ops keyDesk id oneBot).disk
          ((Server.fresh.ops keyDesk id oneBot).call keyDesk
            (apiKeyRevoke "cond_secret")).2.disk) := by
  have hreads : (Server.fresh.ops keyDesk id oneBot).disk.Reads
      (Server.fresh.ops keyDesk id oneBot).store.entries :=
    Server.op_generated_reads keyDesk_alone id Server.fresh_stocked "bot" none
  have hothers : ∀ item ∈ ((Server.fresh.ops keyDesk id oneBot).disk.items.filter
      (carriesPrefix "cond_secret")).tail, isActive item = false := by
    rw [items_of_reads hreads]
    decide +kernel
  exact ⟨hothers, (revokes_all_iff keyDesk_alone id oneBot "cond_secret").mpr hothers⟩

/-- The tokens that a process gets differ behind their first letters. -/
def collidingDesk : KeyEnv :=
  { keyDesk with tokenHex := fun h => "secrets" ++ if h.length < 5 then "a" else "b" }

theorem collidingDesk_alone : collidingDesk.Alone := ⟨keyDesk_alone.calm, keyDesk_alone.dated⟩

def twoBots : List KeyOp := [.generated "bot" none, .generated "robot" none]

/-- The second of two keys that share a prefix stays active. -/
theorem second_key_active : ¬ ∀ (env : KeyEnv) (_ : env.Alone) (sha256Hex : String → String)
    (ops : List KeyOp) (keyPrefix : String),
    ((Server.fresh.ops env sha256Hex ops).call env (apiKeyRevoke keyPrefix)).1 =
        some (.ok 0) →
      RevokesAll keyPrefix (Server.fresh.ops env sha256Hex ops).disk
        ((Server.fresh.ops env sha256Hex ops).call env (apiKeyRevoke keyPrefix)).2.disk := by
  intro hall
  have hrevokes := hall collidingDesk collidingDesk_alone id twoBots "cond_secrets"
  have hstocked := Server.ops_stocked collidingDesk_alone id twoBots
  have hreads : (Server.fresh.ops collidingDesk id twoBots).disk.Reads
      (Server.fresh.ops collidingDesk id twoBots).store.entries :=
    Server.op_generated_reads collidingDesk_alone id
      (Server.ops_stocked collidingDesk_alone id oneBot) "robot" none
  rw [Server.revokes_iff collidingDesk_alone "cond_secrets" hstocked.settled hreads,
    items_of_reads hreads] at hrevokes
  revert hrevokes
  decide +kernel

end Conductor
