/-
What a memory provider says about its scope to the service, in every run and
whatever the service does.
-/
import Conductor.Memory.MemU

namespace Conductor

open Effects Block

namespace MemUProvider

/-- The users for whom documents were stored, the first one first. -/
def users (h : History MemoryCall MemoryReply) : List (Option Dict) :=
  h.reverse.filterMap fun e =>
    match e.call with
    | .memorize _ _ user => some user
    | _ => none

/-- The filters of the questions, the first one first. -/
def filters (h : History MemoryCall MemoryReply) : List (Option Dict) :=
  h.reverse.filterMap fun e =>
    match e.call with
    | .retrieve _ filter => some filter
    | _ => none

/-- What the service was told so far. -/
def told (h : History MemoryCall MemoryReply) : List (Option Dict) × List (Option Dict) :=
  (users h, filters h)

theorem told_memorize (url modality : String) (user : Option Dict)
    (reply : MemoryReply (.memorize url modality user)) (h : History MemoryCall MemoryReply) :
    told (⟨.memorize url modality user, reply⟩ :: h) = (users h ++ [user], filters h) := by
  simp [told, users, filters, List.filterMap_append]

theorem told_retrieve (queries : List Dict) (filter : Option Dict)
    (reply : MemoryReply (.retrieve queries filter)) (h : History MemoryCall MemoryReply) :
    told (⟨.retrieve queries filter, reply⟩ :: h) = (users h, filters h ++ [filter]) := by
  simp [told, users, filters, List.filterMap_append]

variable {W : Type*} {M : Machine W MemoryCall MemoryReply}

/-- A block that tells the service nothing. -/
abbrev Silent (M : Machine W MemoryCall MemoryReply) {α : Type} (m : MemoryBlock α) : Prop :=
  ∀ before, Keeps (M.logic fun _ => False) (fun _ k => told k.history = before) m

theorem silent_perform {c : MemoryCall}
    (hc : ∀ (reply : MemoryReply c) h, told (⟨c, reply⟩ :: h) = told h) :
    Silent M (perform c) := by
  intro before
  apply Keeps.perform
  intro _ k hk
  exact (hc (M.step k c).1 k.history).trans hk

theorem silent_removeTemp (path : Option String) : Silent M (removeTemp path) := by
  intro before
  cases path with
  | none => exact Keeps.pure ()
  | some path =>
      apply Keeps.bind (M.logic_monotone _)
      · exact silent_perform (fun reply h => by simp [told, users, filters]) before
      · intro found
        cases found with
        | false => exact Keeps.pure ()
        | true => exact silent_perform (fun reply h => by simp [told, users, filters]) before

theorem silent_resource (document : MemoryDocument) : Silent M (resource document) := by
  intro before
  have hmono := M.logic_monotone fun _ => False
  apply Keeps.bind hmono
  · exact Keeps.ofExcept _
  · intro resourceUrl
    by_cases hurl : resourceUrl = ""
    · simp only [hurl, if_pos]
      apply Keeps.bind hmono
      · exact silent_perform (fun reply h => by simp [told, users, filters]) before
      · exact fun path => Keeps.pure _
    · simp only [hurl, if_false]
      exact Keeps.pure _

variable (provider : MemUProvider)

/-- The documents are stored one after the other, each for its own user; an
exception leaves out the documents behind it. -/
def Stored {α : Type} (before : List (Option Dict) × List (Option Dict))
    (documents : List MemoryDocument) (outcome : Except PyExc α)
    (h : History MemoryCall MemoryReply) : Prop :=
  ∃ done, done <+: documents ∧ (outcome.isOk → done = documents) ∧
    told h = (before.1 ++ done.map fun document => (provider.userScope document).orNone, before.2)

variable {provider}

theorem Stored.none {α : Type} {documents : List MemoryDocument} {e : PyExc}
    {h : History MemoryCall MemoryReply} :
    provider.Stored (told h) documents (.error e : Except PyExc α) h := by
  refine ⟨[], List.nil_prefix, fun hok => by simp [Except.isOk, Except.toBool] at hok, ?_⟩
  simp [told]

theorem Stored.one {α : Type} {document : MemoryDocument} {outcome : Except PyExc α}
    {h h' : History MemoryCall MemoryReply}
    (htold : told h' = (users h ++ [(provider.userScope document).orNone], filters h)) :
    provider.Stored (told h) [document] outcome h' :=
  ⟨[document], List.prefix_refl _, fun _ => rfl, htold⟩

theorem memorizeDocument_stored (document : MemoryDocument) (x : Unit)
    (k : Config W MemoryCall MemoryReply) :
    (provider.memorizeDocument document).wp (M.logic fun _ => False)
      (fun outcome _ k' => provider.Stored (told k.history) [document] outcome k'.history) x k := by
  have hmono := M.logic_monotone fun _ => False
  rw [memorizeDocument, wp_bind, wp_ofExcept]
  cases ((document.metadata.lookup "modality").getD (.str "document")).asStr with
  | error e => exact Stored.none
  | ok modality =>
      dsimp only
      rw [wp_bind]
      refine wp_mono hmono ?_ (silent_resource document (told k.history) rfl)
      intro outcome _ k₁ hresource
      cases outcome with
      | error e =>
          rw [← hresource]
          exact Stored.none
      | ok found =>
          dsimp only
          rw [wp_bind, wp_tryFinally, wp_perform]
          have htold : told (M.step k₁ (.memorize found.1 modality
              (provider.userScope document).orNone)).2.history =
              (users k.history ++ [(provider.userScope document).orNone], filters k.history) := by
            rw [Machine.step, told_memorize]
            exact congrArg
              (fun before => (before.1 ++ [(provider.userScope document).orNone], before.2))
              hresource
          apply Machine.call_of_step rfl
          refine wp_mono hmono ?_ (silent_removeTemp found.2 _ htold)
          intro ended _ k₂ hended
          cases ended with
          | error e => exact Stored.one hended
          | ok _ =>
              dsimp only
              split <;> exact Stored.one hended

theorem memorize_stored (documents : List MemoryDocument) (x : Unit)
    (k : Config W MemoryCall MemoryReply) :
    (provider.memorize documents).wp (M.logic fun _ => False)
      (fun outcome _ k' => provider.Stored (told k.history) documents outcome k'.history) x k := by
  have hmono := M.logic_monotone fun _ => False
  induction documents generalizing k with
  | nil => exact ⟨[], List.prefix_refl [], fun _ => rfl, by simp [told]⟩
  | cons document rest ih =>
      rw [memorize, wp_bind]
      refine wp_mono hmono ?_ (memorizeDocument_stored document x k)
      intro outcome _ k₁ ⟨done, hdone, hall, htold⟩
      cases outcome with
      | error e =>
          refine ⟨done, hdone.trans ⟨rest, rfl⟩, fun hok => ?_, htold⟩
          simp [Except.isOk, Except.toBool] at hok
      | ok result =>
          cases hall rfl
          dsimp only
          rw [wp_bind]
          refine wp_mono hmono ?_ (ih k₁)
          intro outcome _ k₂ ⟨later, hlater, hlast, htold'⟩
          have hboth : told k₂.history = ((told k.history).1 ++
              (document :: later).map (fun document => (provider.userScope document).orNone),
                (told k.history).2) := by
            rw [htold', htold]
            simp
          have hdone' : document :: later <+: document :: rest :=
            List.cons_prefix_cons.mpr ⟨rfl, hlater⟩
          cases outcome with
          | error e =>
              exact ⟨_, hdone', fun hok => by simp [Except.isOk, Except.toBool] at hok, hboth⟩
          | ok results => exact ⟨_, hdone', fun _ => congrArg _ (hlast rfl), hboth⟩

/-- The one question of a query. -/
theorem retrieve_told (query : MemoryQuery) (x : Unit) (k : Config W MemoryCall MemoryReply) :
    (provider.retrieve query).wp (M.logic fun _ => False)
      (fun _ _ k' => told k'.history =
        (users k.history, filters k.history ++ [(provider.filterOf query).orNone])) x k := by
  rw [retrieve, wp_bind, wp_perform]
  apply Machine.call_of_step rfl
  split <;> exact told_retrieve ..

/-- What the provider passes on, with what the caller says in `own`. -/
inductive Sends (provider : MemUProvider) : (own passed : Dict) → Prop
  | stored (document : MemoryDocument) :
      Sends provider (documentScope document) (provider.userScope document)
  | asked (query : MemoryQuery) : Sends provider query.metadataFilters (provider.filterOf query)

/-- Apart from the namespaces, a key that the caller does not set stands as it
does in the scope. -/
theorem Sends.lookup {own passed : Dict} (hsends : provider.Sends own passed) {key : String}
    (hown : key ∉ Assoc.keys own) (hspace : key ≠ "namespace") (hin : key ≠ "namespace__in") :
    passed.lookup key = provider.scope.lookup key := by
  cases hsends with
  | stored document =>
      rw [userScope, Dict.lookup_update_of_not_mem hown, Dict.insert_eq, Assoc.lookup_insert,
        if_neg hspace]
  | asked query =>
      have hfilter := Dict.lookup_update_of_not_mem (d := provider.scope) hown
      rw [filterOf]
      split
      · exact hfilter
      · rw [Dict.insert_eq, Assoc.lookup_insert, if_neg hin, hfilter]

theorem userScope_namespace {document : MemoryDocument}
    (hown : "namespace" ∉ Assoc.keys (documentScope document)) :
    (provider.userScope document).lookup "namespace" = some (.str document.nameSpace) := by
  rw [userScope, Dict.lookup_update_of_not_mem hown, Dict.insert_eq, Assoc.lookup_insert,
    if_pos rfl]

@[simp] theorem orNone_getD (d : Dict) : d.orNone.getD [] = d := by
  cases d with
  | nil => rfl
  | cons item rest => rfl

/-- The scope has no key of its own for the namespaces. -/
def PlainScope (provider : MemUProvider) : Prop :=
  "namespace" ∉ Assoc.keys provider.scope ∧ "namespace__in" ∉ Assoc.keys provider.scope

theorem PlainScope.ne {key : String} {value : Value} (hplain : provider.PlainScope)
    (hkey : provider.scope.lookup key = some value) :
    key ≠ "namespace" ∧ key ≠ "namespace__in" := by
  have hmem : key ∈ Assoc.keys provider.scope :=
    Assoc.mem_keys_of_mem (Assoc.mem_of_lookup hkey)
  exact ⟨fun heq => hplain.1 (heq ▸ hmem), fun heq => hplain.2 (heq ▸ hmem)⟩

theorem PlainScope.ne_of_lookup_ne {other : MemUProvider} {key : String}
    (hplain : provider.PlainScope) (hplain' : other.PlainScope)
    (hne : provider.scope.lookup key ≠ other.scope.lookup key) :
    key ≠ "namespace" ∧ key ≠ "namespace__in" := by
  cases hkey : provider.scope.lookup key with
  | some value => exact hplain.ne hkey
  | none =>
      cases hkey' : other.scope.lookup key with
      | some value => exact hplain'.ne hkey'
      | none => exact absurd (hkey.trans hkey'.symm) hne

/-- In every run the service is told the scope of the provider, with the
namespace of the document, except for the keys that the metadata of the document
or the filters of the query set.  So two providers whose scopes differ in a key
share no value of it that neither caller sets. -/
theorem scope_kept_unless_set (M : Machine W MemoryCall MemoryReply)
    (provider other : MemUProvider) (hplain : provider.PlainScope) (hplain' : other.PlainScope) :
    (∀ documents k, ∃ outcome k' done,
      (provider.memorize documents).exec M () k = (some (outcome, ()), k') ∧
        done <+: documents ∧ filters k'.history = filters k.history ∧
        users k'.history =
          users k.history ++ done.map fun document => (provider.userScope document).orNone) ∧
    (∀ query k, ∃ outcome k', (provider.retrieve query).exec M () k = (some (outcome, ()), k') ∧
      users k'.history = users k.history ∧
      filters k'.history = filters k.history ++ [(provider.filterOf query).orNone]) ∧
    (∀ document, "namespace" ∉ Assoc.keys (documentScope document) →
      ((provider.userScope document).orNone.getD []).lookup "namespace" =
        some (.str document.nameSpace)) ∧
    (∀ own passed, provider.Sends own passed → ∀ key value,
      provider.scope.lookup key = some value → key ∉ Assoc.keys own →
        (passed.orNone.getD []).lookup key = some value) ∧
    ∀ key own passed own' passed', provider.Sends own passed → other.Sends own' passed' →
      provider.scope.lookup key ≠ other.scope.lookup key →
        key ∉ Assoc.keys own → key ∉ Assoc.keys own' →
          (passed.orNone.getD []).lookup key ≠ (passed'.orNone.getD []).lookup key := by
  refine ⟨?stores, ?asks, ?space, ?carries, ?apart⟩
  case stores =>
    intro documents k
    obtain ⟨⟨outcome, _⟩, k', hexec, done, hdone, -, htold⟩ :=
      Machine.exec_of_wp (M := M) (p := (provider.memorize documents).run ())
        (memorize_stored documents () k)
    exact ⟨outcome, k', done, hexec, hdone, congrArg Prod.snd htold, congrArg Prod.fst htold⟩
  case asks =>
    intro query k
    obtain ⟨⟨outcome, _⟩, k', hexec, htold⟩ :=
      Machine.exec_of_wp (M := M) (p := (provider.retrieve query).run ()) (retrieve_told query () k)
    exact ⟨outcome, k', hexec, congrArg Prod.fst htold, congrArg Prod.snd htold⟩
  case space =>
    intro document hown
    rw [orNone_getD, userScope_namespace hown]
  case carries =>
    intro own passed hsends key value hkey hown
    obtain ⟨hspace, hin⟩ := hplain.ne hkey
    rw [orNone_getD, hsends.lookup hown hspace hin, hkey]
  case apart =>
    intro key own passed own' passed' hsends hsends' hne hown hown'
    obtain ⟨hspace, hin⟩ := hplain.ne_of_lookup_ne hplain' hne
    rw [orNone_getD, orNone_getD, hsends.lookup hown hspace hin, hsends'.lookup hown' hspace hin]
    exact hne

/-- A service that answers every call. -/
def quietService : Machine Unit MemoryCall MemoryReply where
  respond _ _
    | .memorize _ _ _ => (.ok .none, ())
    | .retrieve _ _ => (.ok (.dict []), ())
    | .writeTemp _ => (.ok "note.md", ())
    | .pathExists _ => (.ok true, ())
    | .unlink _ => (.ok (), ())

def providerOf (userId : String) : MemUProvider := ⟨[("user_id", .str userId)]⟩

theorem providerOf_plain (userId : String) : (providerOf userId).PlainScope := by
  constructor <;> simp [providerOf]

/-- A note for another user than that of the provider. -/
def noteFor (userId : String) : MemoryDocument where
  externalId := "note"
  nameSpace := "notes"
  content := "text"
  metadata := [("scope", .dict [("user_id", .str userId)])]

theorem scope_kept_unless_set_providerOf :
    (((providerOf "alice").filterOf ⟨"tea", ["notes"], 5, []⟩).orNone.getD []).lookup "user_id" =
      some (.str "alice") :=
  (scope_kept_unless_set quietService (providerOf "alice") (providerOf "bob")
    (providerOf_plain "alice") (providerOf_plain "bob")).2.2.2.1 _ _ (.asked _) _ _ rfl
      (by decide)

/-- What the provider does with a document, as the history of its calls. -/
def historyOf (provider : MemUProvider) (document : MemoryDocument) :
    History MemoryCall MemoryReply :=
  ((provider.memorize [document]).exec quietService () ⟨[], ()⟩).2.history

/-- The metadata of a document puts it under the scope of another provider. -/
theorem scope_left :
    (providerOf "alice").PlainScope ∧
      (providerOf "alice").scope.lookup "user_id" = some (.str "alice") ∧
      users (historyOf (providerOf "alice") (noteFor "bob")) =
        [some [("user_id", .str "bob"), ("namespace", .str "notes")]] ∧
      users (historyOf (providerOf "bob") (noteFor "bob")) =
        [some [("user_id", .str "bob"), ("namespace", .str "notes")]] :=
  ⟨providerOf_plain "alice", rfl, rfl, rfl⟩

end MemUProvider

end Conductor
