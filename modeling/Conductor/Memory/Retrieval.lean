/-
When the answer of the memory service is read without an exception, and what is
read from it.
-/
import Conductor.Memory.MemU

namespace Conductor

open Effects Block

namespace MemUProvider

theorem each_eq_ok {α β : Type} {step : α → Except PyExc β} {values : List α} {results : List β} :
    each step values = .ok results ↔
      List.Forall₂ (fun value result => step value = .ok result) values results := by
  induction values generalizing results with
  | nil => cases results <;> simp [each]
  | cons value rest ih =>
      constructor
      · intro heach
        obtain ⟨result, hstep, heach⟩ := Except.ok_of_bind heach
        obtain ⟨others, hrest, heach⟩ := Except.ok_of_bind heach
        cases heach
        exact .cons hstep (ih.mp hrest)
      · intro hall
        cases hall with
        | cons hstep hrest => rw [each, bind_of_ok hstep, bind_of_ok (ih.mpr hrest)]; rfl

theorem each_total {α β : Type} {step : α → Except PyExc β} {values : List α} :
    (∃ results, each step values = .ok results) ↔
      ∀ value ∈ values, ∃ result, step value = .ok result := by
  induction values with
  | nil => simp [each]
  | cons value rest ih =>
      rw [List.forall_mem_cons, ← ih]
      constructor
      · intro ⟨results, heach⟩
        obtain ⟨result, hstep, heach⟩ := Except.ok_of_bind heach
        obtain ⟨others, hrest, -⟩ := Except.ok_of_bind heach
        exact ⟨⟨result, hstep⟩, others, hrest⟩
      · intro ⟨⟨result, hstep⟩, others, hrest⟩
        exact ⟨result :: others, by rw [each, bind_of_ok hstep, bind_of_ok hrest]; rfl⟩

theorem keepThose_total {α : Type} {condition : α → Except PyExc Bool} {values : List α} :
    (∃ kept, keepThose condition values = .ok kept) ↔
      ∀ value ∈ values, ∃ b, condition value = .ok b := by
  induction values with
  | nil => simp [keepThose]
  | cons value rest ih =>
      rw [List.forall_mem_cons, ← ih]
      constructor
      · intro ⟨kept, hkept⟩
        obtain ⟨b, hvalue, hkept⟩ := Except.ok_of_bind hkept
        obtain ⟨others, hrest, -⟩ := Except.ok_of_bind hkept
        exact ⟨⟨b, hvalue⟩, others, hrest⟩
      · intro ⟨⟨b, hvalue⟩, others, hrest⟩
        exact ⟨_, by rw [keepThose, bind_of_ok hvalue, bind_of_ok hrest]; rfl⟩

theorem keepThose_sublist {α : Type} {condition : α → Except PyExc Bool} {values kept : List α}
    (hkept : keepThose condition values = .ok kept) :
    kept.Sublist values ∧ ∀ value ∈ kept, condition value = .ok true := by
  induction values generalizing kept with
  | nil =>
      cases hkept
      simp
  | cons value rest ih =>
      obtain ⟨b, hvalue, hkept⟩ := Except.ok_of_bind hkept
      obtain ⟨others, hrest, hkept⟩ := Except.ok_of_bind hkept
      obtain ⟨hsub, hall⟩ := ih hrest
      cases hkept
      cases b with
      | false => exact ⟨hsub.cons value, hall⟩
      | true => exact ⟨hsub.cons_cons value, List.forall_mem_cons.mpr ⟨hvalue, hall⟩⟩

/-- The first number among the scores is not an integer that no float holds. -/
def ScoreFits (entry : Dict) : Prop :=
  ∀ n, (valuesOf entry scoreFields).find? (fun value => (toFloat value).isSome) = some (.int n) →
    n.natAbs < floatLimit

/-- The identifier holds no integer that is too long to be written. -/
def IdFits (entry : Dict) : Prop :=
  ∀ value, (valuesOf entry idFields).find? Value.truthy = some value → value.hasLongInt = false

/-- There is a text, or the entry can be written in its place. -/
def ContentFits (entry : Dict) : Prop :=
  (valuesOf entry contentFields).findSome? textOf = none → Json.refusal (.dict entry) = none

theorem extractScore_total (entry : Dict) :
    (∃ score, extractScore entry = .ok score) ↔ ScoreFits entry := by
  have hvalues : ∀ values : List Value,
      (∃ score, (values.findSome? toFloat).elim (.ok none) (·.map some) =
          (.ok score : Except PyExc (Option Score))) ↔
      ∀ n, values.find? (fun value => (toFloat value).isSome) = some (.int n) →
        n.natAbs < floatLimit := by
    intro values
    induction values with
    | nil => simp
    | cons value rest ih =>
        rw [List.findSome?_cons, List.find?_cons]
        cases value with
        | int n =>
            by_cases hn : floatLimit ≤ n.natAbs
            · simp [toFloat, hn, Except.map]
            · simp [toFloat, hn, Except.map, Nat.lt_of_not_le hn]
        | bool b => simp [toFloat, Except.map]
        | float repr => simp [toFloat, Except.map]
        | _ => simpa [toFloat] using ih
  have hextract : extractScore entry =
      ((valuesOf entry scoreFields).findSome? toFloat).elim (.ok none) (·.map some) := by
    unfold extractScore
    cases (valuesOf entry scoreFields).findSome? toFloat <;> rfl
  rw [hextract]
  exact hvalues _

theorem extractExternalId_total (place : Place) :
    (∃ text, extractExternalId place = .ok text) ↔ IdFits place.entry := by
  unfold extractExternalId IdFits
  cases (valuesOf place.entry idFields).find? Value.truthy with
  | none => simp
  | some value => cases hlong : value.hasLongInt <;> simp [Value.asStr, hlong]

theorem extractContent_total (entry : Dict) :
    (∃ text, extractContent entry = .ok text) ↔ ContentFits entry := by
  unfold extractContent ContentFits Json.dumps
  cases (valuesOf entry contentFields).findSome? textOf with
  | some text => simp
  | none => cases Json.refusal (.dict entry) <;> simp

theorem hitAt_total (place : Place) :
    (∃ hit, hitAt place = .ok hit) ↔
      IdFits place.entry ∧ ContentFits place.entry ∧ ScoreFits place.entry := by
  rw [← extractExternalId_total, ← extractContent_total, ← extractScore_total]
  constructor
  · intro ⟨hit, hhit⟩
    obtain ⟨externalId, hid, hhit⟩ := Except.ok_of_bind hhit
    obtain ⟨content, hcontent, hhit⟩ := Except.ok_of_bind hhit
    obtain ⟨score, hscore, -⟩ := Except.ok_of_bind hhit
    exact ⟨⟨_, hid⟩, ⟨_, hcontent⟩, _, hscore⟩
  · intro ⟨⟨externalId, hid⟩, ⟨content, hcontent⟩, score, hscore⟩
    exact ⟨_, by rw [hitAt, bind_of_ok hid, bind_of_ok hcontent, bind_of_ok hscore]; rfl⟩

theorem hitAt_metadata {place : Place} {hit : MemoryHit} (hhit : hitAt place = .ok hit) :
    hit.metadata = extractMetadata place.entry := by
  obtain ⟨externalId, -, hhit⟩ := Except.ok_of_bind hhit
  obtain ⟨content, -, hhit⟩ := Except.ok_of_bind hhit
  obtain ⟨score, -, hhit⟩ := Except.ok_of_bind hhit
  cases hhit
  rfl

/-- A copy of the metadata that the entry brings along. -/
def ownMetadata (entry : Dict) : Dict :=
  match entry.lookup "metadata" with
  | some (.dict items) => Dict.update [] items
  | _ => []

/-- The user of the entry, or else that of its metadata, whatever it is. -/
def userOf (entry : Dict) : Option Value :=
  match entry.lookup "user" with
  | some (.dict user) => some (.dict user)
  | _ => (ownMetadata entry).lookup "user"

/-- The namespace of the metadata, or else that of the entry. -/
def namespaceOf (entry : Dict) : Option Value :=
  ((ownMetadata entry).lookup "namespace").or (entry.lookup "namespace")

theorem lookup_takeField {entry metadata : Dict} {field key : String} (hfield : field ≠ "metadata")
    (hkey : key ≠ field) : (takeField entry metadata field).lookup key = metadata.lookup key := by
  unfold takeField
  split
  · rw [if_neg hfield, Dict.insert_eq, Assoc.lookup_insert, if_neg hkey]
  · rfl

theorem takeField_metadata (entry : Dict) : takeField entry [] "metadata" = ownMetadata entry := by
  unfold takeField ownMetadata
  cases entry.lookup "metadata" with
  | none => rfl
  | some value => cases value <;> rfl

theorem lookup_takeField_user (entry : Dict) :
    (takeField entry (ownMetadata entry) "user").lookup "user" = userOf entry := by
  unfold takeField userOf
  cases entry.lookup "user" with
  | none => rfl
  | some value =>
      cases value with
      | dict user => simp [Dict.insert_eq, Assoc.lookup_insert]
      | _ => rfl

theorem lookup_takeNamespace {items metadata : Dict} {key : String} (hkey : key ≠ "namespace") :
    (takeNamespace items metadata).lookup key = metadata.lookup key := by
  unfold takeNamespace
  split
  · rw [Dict.insert_eq, Assoc.lookup_insert, if_neg hkey]
  · rfl

theorem lookup_takeNamespace_self (items metadata : Dict) :
    (takeNamespace items metadata).lookup "namespace" =
      (metadata.lookup "namespace").or (items.lookup "namespace") := by
  unfold takeNamespace
  cases hitems : items.lookup "namespace" <;> cases hown : metadata.lookup "namespace" <;>
    simp [hown, Dict.insert_eq, Assoc.lookup_insert]

/-- The fields of the entry taken over, before the namespace of the user is. -/
def takenOver (entry : Dict) : Dict :=
  takeNamespace entry (["metadata", "user", "scope", "resource"].foldl (takeField entry) [])

theorem lookup_takenOver_user (entry : Dict) : (takenOver entry).lookup "user" = userOf entry := by
  rw [takenOver, lookup_takeNamespace (by decide)]
  simp only [List.foldl_cons, List.foldl_nil, takeField_metadata]
  rw [lookup_takeField (by decide) (by decide), lookup_takeField (by decide) (by decide),
    lookup_takeField_user]

theorem lookup_takenOver_namespace (entry : Dict) :
    (takenOver entry).lookup "namespace" = namespaceOf entry := by
  rw [takenOver, lookup_takeNamespace_self, namespaceOf]
  simp only [List.foldl_cons, List.foldl_nil, takeField_metadata]
  rw [lookup_takeField (by decide) (by decide), lookup_takeField (by decide) (by decide),
    lookup_takeField (by decide) (by decide)]

theorem extractMetadata_eq (entry : Dict) :
    extractMetadata entry =
      match userOf entry with
      | some (.dict user) => takeNamespace user (takenOver entry)
      | _ => takenOver entry := by
  rw [← lookup_takenOver_user]
  rfl

theorem lookup_extractMetadata_user (entry : Dict) :
    (extractMetadata entry).lookup "user" = userOf entry := by
  rw [extractMetadata_eq]
  split
  · rw [lookup_takeNamespace (by decide), lookup_takenOver_user]
  · exact lookup_takenOver_user entry

/-- A value that `get` can be called on, if it is there. -/
def DictOrMissing (value : Option Value) : Prop :=
  ∀ found, value = some found → ∃ d, found = .dict d

theorem lookup_extractMetadata_namespace {entry : Dict} (huser : ¬ DictOrMissing (userOf entry)) :
    (extractMetadata entry).lookup "namespace" = namespaceOf entry := by
  rw [extractMetadata_eq]
  split
  · rename_i user hfound
    refine absurd ?_ huser
    intro found heq
    exact ⟨user, Option.some.inj (heq.symm.trans hfound)⟩
  · exact lookup_takenOver_namespace entry

theorem requested_total {namespaces : List String} {hit : MemoryHit} :
    (∃ b, requested namespaces hit = .ok b) ↔
      among namespaces (hit.metadata.lookup "namespace") = true ∨
        DictOrMissing (hit.metadata.lookup "user") := by
  unfold requested DictOrMissing
  by_cases hamong : among namespaces (hit.metadata.lookup "namespace") = true
  · simp [hamong]
  · rw [if_neg hamong]
    cases huser : hit.metadata.lookup "user" with
    | none => simp [Value.getItem, Except.map]
    | some user => cases user <;> simp [Value.getItem, Except.map, hamong]

/-- The namespace of the entry is requested, or its user can be asked for one. -/
def UserReadable (namespaces : List String) (entry : Dict) : Prop :=
  among namespaces (namespaceOf entry) = true ∨ DictOrMissing (userOf entry)

theorem requested_hitAt {namespaces : List String} {place : Place} {hit : MemoryHit}
    (hhit : hitAt place = .ok hit) :
    (∃ b, requested namespaces hit = .ok b) ↔ UserReadable namespaces place.entry := by
  rw [requested_total, hitAt_metadata hhit, lookup_extractMetadata_user, UserReadable]
  by_cases huser : DictOrMissing (userOf place.entry)
  · simp [huser]
  · rw [lookup_extractMetadata_namespace huser]

/-- An entry that is read without an exception. -/
structure Readable (namespaces : List String) (entry : Dict) : Prop where
  externalId : IdFits entry
  content : ContentFits entry
  score : ScoreFits entry
  user : namespaces = [] ∨ UserReadable namespaces entry

/-- The namespace of the hit, or that of its user, is among these. -/
def InNamespaces (namespaces : List String) (hit : MemoryHit) : Prop :=
  ∃ space ∈ namespaces, hit.metadata.lookup "namespace" = some (.str space) ∨
    ∃ user, hit.metadata.lookup "user" = some (.dict user) ∧
      user.lookup "namespace" = some (.str space)

/-- No more hits than the limit, of some of the entries in their order, and all
of a requested namespace. -/
structure Answers (query : MemoryQuery) (raw : Dict) (hits : List MemoryHit) : Prop where
  count : hits.length ≤ query.limit
  ordered : ∃ chosen, chosen.Sublist (places raw) ∧
    List.Forall₂ (fun place hit => hitAt place = .ok hit) chosen hits
  spaces : query.namespaces ≠ [] → ∀ hit ∈ hits, InNamespaces query.namespaces hit

theorem among_eq_true {namespaces : List String} {value : Option Value}
    (hamong : among namespaces value = true) : ∃ space ∈ namespaces, value = some (.str space) := by
  cases value with
  | none => cases hamong
  | some value =>
      cases value with
      | str space => exact ⟨space, List.contains_iff_mem.mp hamong, rfl⟩
      | _ => cases hamong

theorem inNamespaces_of_requested {namespaces : List String} {hit : MemoryHit}
    (hrequested : requested namespaces hit = .ok true) : InNamespaces namespaces hit := by
  unfold requested at hrequested
  split at hrequested
  · rename_i hamong
    obtain ⟨space, hmem, hspace⟩ := among_eq_true hamong
    exact ⟨space, hmem, .inl hspace⟩
  · cases huser : hit.metadata.lookup "user" with
    | none =>
        rw [huser] at hrequested
        cases hrequested
    | some user =>
        rw [huser] at hrequested
        cases user with
        | dict items =>
            obtain ⟨space, hmem, hspace⟩ := among_eq_true (Except.ok.inj hrequested)
            exact ⟨space, hmem, .inr ⟨items, huser, hspace⟩⟩
        | _ => cases hrequested

/-- Some of the results are the results of some of the values. -/
theorem forall₂_sublist {α β : Type} {R : α → β → Prop} {values : List α} {results kept : List β}
    (hall : List.Forall₂ R values results) (hsub : kept.Sublist results) :
    ∃ chosen, chosen.Sublist values ∧ List.Forall₂ R chosen kept := by
  induction hsub generalizing values with
  | slnil => exact ⟨[], List.nil_sublist _, .nil⟩
  | cons result hsub ih =>
      cases hall with
      | cons hstep hrest =>
          obtain ⟨chosen, hchosen, hkept⟩ := ih hrest
          exact ⟨chosen, hchosen.cons _, hkept⟩
  | cons_cons result hsub ih =>
      cases hall with
      | cons hstep hrest =>
          obtain ⟨chosen, hchosen, hkept⟩ := ih hrest
          exact ⟨_, hchosen.cons_cons _, .cons hstep hkept⟩

theorem forall₂_partner {α β : Type} {R : α → β → Prop} {values : List α} {results : List β}
    (hall : List.Forall₂ R values results) :
    (∀ value ∈ values, ∃ result ∈ results, R value result) ∧
      ∀ result ∈ results, ∃ value ∈ values, R value result := by
  induction hall with
  | nil => simp
  | cons hstep _ ih => simp_all

theorem sliceTo_eq_take {α : Type} {limit : Int} (hlimit : 0 ≤ limit) (values : List α) :
    sliceTo limit values = values.take limit.toNat := by
  rw [sliceTo, if_pos hlimit]

theorem requestedHits_sublist {namespaces : List String} {hits kept : List MemoryHit}
    (hkept : requestedHits namespaces hits = .ok kept) :
    kept.Sublist hits ∧ (namespaces ≠ [] → ∀ hit ∈ kept, InNamespaces namespaces hit) := by
  unfold requestedHits at hkept
  split at hkept
  · rename_i hempty
    cases hkept
    exact ⟨List.Sublist.refl _, fun hne => absurd (List.isEmpty_iff.mp hempty) hne⟩
  · obtain ⟨hsub, hall⟩ := keepThose_sublist hkept
    exact ⟨hsub, fun _ hit hmem => inNamespaces_of_requested (hall hit hmem)⟩

theorem selectHits_answers {query : MemoryQuery} {raw : Dict} {hits : List MemoryHit}
    (hlimit : 0 ≤ query.limit) (hhits : selectHits query (.dict raw) = .ok hits) :
    Answers query raw hits := by
  obtain ⟨found, hfound, hhits⟩ := Except.ok_of_bind hhits
  obtain ⟨kept, hkept, hhits⟩ := Except.ok_of_bind hhits
  have htake : kept.take query.limit.toNat = hits := by
    rw [← sliceTo_eq_take hlimit]
    exact Except.ok.inj hhits
  obtain ⟨hsub, hspaces⟩ := requestedHits_sublist hkept
  subst htake
  have hshort : (kept.take query.limit.toNat).Sublist kept := List.take_sublist _ _
  constructor
  · have hlength := List.length_take_le query.limit.toNat kept
    omega
  · exact forall₂_sublist (each_eq_ok.mp hfound) (hshort.trans hsub)
  · exact fun hne hit hmem => hspaces hne hit (hshort.subset hmem)

theorem requestedHits_total {namespaces : List String} {hits : List MemoryHit} :
    (∃ kept, requestedHits namespaces hits = .ok kept) ↔
      namespaces = [] ∨ ∀ hit ∈ hits, ∃ b, requested namespaces hit = .ok b := by
  unfold requestedHits
  cases namespaces with
  | nil => simp
  | cons space rest => simp [keepThose_total]

/-- Every entry has to be readable, also one that is then left out. -/
theorem selectHits_total (query : MemoryQuery) (raw : Dict) :
    (∃ hits, selectHits query (.dict raw) = .ok hits) ↔
      ∀ place ∈ places raw, Readable query.namespaces place.entry := by
  constructor
  · intro ⟨hits, hhits⟩ place hplace
    obtain ⟨found, hfound, hhits⟩ := Except.ok_of_bind hhits
    obtain ⟨kept, hkept, -⟩ := Except.ok_of_bind hhits
    obtain ⟨hit, hmem, hhit⟩ := (forall₂_partner (each_eq_ok.mp hfound)).1 place hplace
    obtain ⟨hid, hcontent, hscore⟩ := (hitAt_total place).mp ⟨hit, hhit⟩
    refine ⟨hid, hcontent, hscore, ?_⟩
    rcases requestedHits_total.mp ⟨kept, hkept⟩ with hnone | hall
    · exact .inl hnone
    · exact .inr ((requested_hitAt hhit).mp (hall hit hmem))
  · intro hreadable
    have htotal : ∀ place ∈ places raw, ∃ hit, hitAt place = .ok hit := by
      intro place hplace
      obtain ⟨hid, hcontent, hscore, -⟩ := hreadable place hplace
      exact (hitAt_total place).mpr ⟨hid, hcontent, hscore⟩
    obtain ⟨found, hfound⟩ := each_total.mpr htotal
    have hkept : ∃ kept, requestedHits query.namespaces found = .ok kept := by
      rw [requestedHits_total]
      by_cases hnone : query.namespaces = []
      · exact .inl hnone
      · refine .inr fun hit hmem => ?_
        obtain ⟨place, hplace, hhit⟩ := (forall₂_partner (each_eq_ok.mp hfound)).2 hit hmem
        exact (requested_hitAt hhit).mpr ((hreadable place hplace).user.resolve_left hnone)
    obtain ⟨kept, hkept⟩ := hkept
    exact ⟨_, by rw [selectHits, normalizeHits, bind_of_ok hfound, bind_of_ok hkept]; rfl⟩

variable {W : Type*}

theorem retrieve_exec (M : Machine W MemoryCall MemoryReply) (provider : MemUProvider)
    (query : MemoryQuery) (k : Config W MemoryCall MemoryReply) {raw : Value}
    (hanswer : (M.step k (provider.question query)).1 = .ok raw) :
    (provider.retrieve query).exec M () k =
      (some (selectHits query raw, ()), (M.step k (provider.question query)).2) := by
  have hcall : (perform (provider.question query) : MemoryBlock Value).exec M () k =
      (some (.ok raw, ()), (M.step k (provider.question query)).2) := by
    rw [← hanswer]
    rfl
  rw [retrieve, exec_bind, hcall]
  rfl

/-- On an answer that is a JSON object, `retrieve` returns, with hits as they are
promised, if and only if every entry is readable. -/
theorem retrieve_returns_iff (M : Machine W MemoryCall MemoryReply) (provider : MemUProvider)
    (query : MemoryQuery) (hlimit : 0 ≤ query.limit) (k : Config W MemoryCall MemoryReply)
    (raw : Dict) (hanswer : (M.step k (provider.question query)).1 = .ok (.dict raw)) :
    (∃ hits k', (provider.retrieve query).exec M () k = (some (.ok hits, ()), k') ∧
      Answers query raw hits) ↔
    ∀ place ∈ places raw, Readable query.namespaces place.entry := by
  rw [← selectHits_total, retrieve_exec M provider query k hanswer]
  constructor
  · intro ⟨hits, k', hexec, _⟩
    exact ⟨hits, congrArg Prod.fst (Option.some.inj (congrArg Prod.fst hexec))⟩
  · intro ⟨hits, hhits⟩
    exact ⟨hits, _, by rw [hhits], selectHits_answers hlimit hhits⟩

/-- A service that gives this answer to every question. -/
def answering (raw : Dict) : Machine Unit MemoryCall MemoryReply where
  respond _ _
    | .memorize _ _ _ => (.ok .none, ())
    | .retrieve _ _ => (.ok (.dict raw), ())
    | .writeTemp _ => (.ok "note.md", ())
    | .pathExists _ => (.ok true, ())
    | .unlink _ => (.ok (), ())

/-- An answer with one entry whose metadata name a user. -/
def oneItem (user : Value) : Dict :=
  [("items", .list [.dict [("content", .str "tea"), ("metadata", .dict [("user", user)])]])]

/-- A question for the notes of the team. -/
def teamQuery : MemoryQuery where
  query := "tea"
  namespaces := ["team"]

theorem retrieve_returns_iff_oneItem :
    ∃ hits k', (retrieve {} teamQuery).exec (answering (oneItem (.dict []))) () ⟨[], ()⟩ =
      (some (.ok hits, ()), k') ∧ Answers teamQuery (oneItem (.dict [])) hits := by
  apply (retrieve_returns_iff (answering (oneItem (.dict []))) {} teamQuery (by decide) ⟨[], ()⟩
    (oneItem (.dict [])) rfl).mpr
  intro place hplace
  cases List.mem_singleton.mp hplace
  constructor
  · intro value hvalue
    cases hvalue
  · intro hnone
    cases hnone
  · intro n hn
    cases hn
  · refine .inr (.inr ?_)
    intro found hfound
    cases hfound
    exact ⟨[], rfl⟩

/-- The user is named by a text, which has no namespace to be asked for. -/
theorem retrieve_raises :
    ((retrieve {} teamQuery).exec (answering (oneItem (.str "alice"))) () ⟨[], ()⟩).1 =
      some (.error (.exception "AttributeError" "'str' object has no attribute 'get'"), ()) := by
  rfl

end MemUProvider

end Conductor
