/-
What the coordinator makes of its registry: which nodes it lists, and which node
it sends a task to.
-/
import Conductor.Api.Cluster

namespace Conductor

namespace EngineRegistry

/-- Each node is filed once, under its own id. -/
structure Filed (registry : EngineRegistry) : Prop where
  nodup : (Assoc.keys registry.nodes).Nodup
  own : ∀ item ∈ registry.nodes, item.2.engineId = item.1

theorem filed_empty : empty.Filed := ⟨List.nodup_nil, fun _ hmem => nomatch hmem⟩

theorem Filed.insert {registry : EngineRegistry} (hfiled : registry.Filed) {engineId : String}
    {node : EngineNode} (hnode : node.engineId = engineId) :
    (EngineRegistry.mk (Assoc.insert engineId node registry.nodes)).Filed := by
  constructor
  · exact Assoc.nodup_insert hfiled.nodup
  · intro item hmem
    rcases Assoc.mem_insert hmem with hmem | heq
    · exact hfiled.own item hmem
    · rw [heq]
      exact hnode

theorem Filed.step {registry : EngineRegistry} (hfiled : registry.Filed) (op : ClusterOp) :
    (registry.step op).Filed := by
  cases op with
  | register node => exact hfiled.insert rfl
  | heartbeat engineId healthy now =>
      simp only [EngineRegistry.step, heartbeat]
      cases hget : registry.get engineId with
      | none => exact hfiled
      | some node =>
          have hnode : node.engineId = engineId := hfiled.own _ (Assoc.mem_of_lookup hget)
          exact hfiled.insert hnode
  | deregister engineId =>
      constructor
      · exact Assoc.nodup_erase hfiled.nodup
      · exact fun item hmem => hfiled.own item ((Assoc.erase_sublist _ _).subset hmem)

theorem filed_run (ops : List ClusterOp) : (run ops).Filed :=
  List.foldlRecOn ops _ filed_empty fun _ hfiled op _ => hfiled.step op

theorem Filed.ids_nodup {registry : EngineRegistry} (hfiled : registry.Filed) :
    (registry.registered.map (·.engineId)).Nodup := by
  have hids : registry.registered.map (·.engineId) = Assoc.keys registry.nodes := by
    rw [registered, List.map_map, Assoc.keys]
    exact List.map_congr_left hfiled.own
  rw [hids]
  exact hfiled.nodup

theorem Filed.eq_of_engineId {registry : EngineRegistry} (hfiled : registry.Filed)
    {node node' : EngineNode} (hmem : node ∈ registry.registered)
    (hmem' : node' ∈ registry.registered) (hid : node.engineId = node'.engineId) : node = node' :=
  List.inj_on_of_nodup_map hfiled.ids_nodup hmem hmem' hid

/-- The nodes that may be selected for these tags. -/
def eligible (registry : EngineRegistry) (tags : Tags) : List EngineNode :=
  registry.registered.filter fun node => node.healthy && node.matchesTags tags

theorem mem_eligible {registry : EngineRegistry} {tags : Tags} {node : EngineNode} :
    node ∈ registry.eligible tags ↔
      node ∈ registry.registered ∧ node.healthy = true ∧ node.matchesTags tags = true := by
  simp [eligible]

/-- No tags and no required tags are the same. -/
theorem select_eq (registry : EngineRegistry) (tags : Tags) :
    registry.select (if tags.isEmpty then none else some tags) =
      sortedDescending (·.lastSeen) (registry.eligible tags) := by
  cases tags with
  | nil => simp [select, eligible, EngineNode.matchesTags]
  | cons tag tags => simp [select, eligible, List.filter_filter, Bool.and_comm]

end EngineRegistry

/-- The node can run the task. -/
def EngineNode.Able (body : SubmitToEngineRequest) (node : EngineNode) : Prop :=
  node.healthy = true ∧ node.matchesTags body.engineTags = true ∧
    node.hasCapability body.capability = true

def RouteOutcome.Refused (outcome : RouteOutcome) : Prop :=
  ∃ code message, outcome.reply = .error (.http 400 code message)

/-- The task goes to an able node seen last among these, and it is refused if
there is none. -/
structure RoutesAbly (registry : EngineRegistry) (body : SubmitToEngineRequest)
    (outcome : RouteOutcome) : Prop where
  able : ∀ node, outcome.sentTo = some node → node ∈ registry.registered ∧ node.Able body ∧
    ∀ other ∈ registry.registered, other.Able body → other.lastSeen ≤ node.lastSeen
  refused : outcome.Refused ↔ ∀ node ∈ registry.registered, ¬ node.Able body

theorem not_refused (client : HttpClient) (node : EngineNode) (answered : Except PyExc Value)
    (unreachable : PyExc → String) : ¬ (RouteOutcome.mk (some node) (answered.mapError fun e =>
      if client.isHttpError e then .http 502 "proxy_error" (unreachable e)
      else .raised e)).Refused := by
  intro hrefused
  obtain ⟨code, message, hreply⟩ := hrefused
  cases answered with
  | ok result => cases hreply
  | error e =>
      simp only [Except.mapError, Except.error.injEq] at hreply
      split at hreply <;> cases hreply

/-- The route asks for the capability nowhere: it routes ably just where the node
that comes first among the eligible ones seen last has the capability. -/
theorem auto_route_able_iff (ops : List ClusterOp) (client : HttpClient)
    (body : SubmitToEngineRequest) :
    RoutesAbly (.run ops) body (runTaskAutoRoute client (.run ops) body) ↔
      ∀ node, FirstGreatest (·.lastSeen) ((EngineRegistry.run ops).eligible body.engineTags) node →
        node.hasCapability body.capability = true := by
  generalize EngineRegistry.run ops = registry
  have hable : ∀ node, node ∈ registry.registered → node.Able body →
      node ∈ registry.eligible body.engineTags := fun node hmem hnode =>
    EngineRegistry.mem_eligible.mpr ⟨hmem, hnode.1, hnode.2.1⟩
  unfold runTaskAutoRoute
  rw [EngineRegistry.select_eq]
  cases hsorted : sortedDescending (·.lastSeen) (registry.eligible body.engineTags) with
  | nil =>
      have hnone : ∀ node, node ∉ registry.eligible body.engineTags := by
        intro node hmem
        have hmem' : node ∈ sortedDescending (·.lastSeen) (registry.eligible body.engineTags) :=
          mem_sortedDescending.mpr hmem
        rw [hsorted] at hmem'
        cases hmem'
      constructor
      · exact fun _ node hfirst => absurd hfirst.mem (hnone node)
      · intro _
        constructor
        · exact fun node hsent => nomatch hsent
        · constructor
          · exact fun _ node hmem hnode => hnone node (hable node hmem hnode)
          · exact fun _ => ⟨_, _, rfl⟩
  | cons node rest =>
      have hfirst := firstGreatest_of_head hsorted
      obtain ⟨hmem, hhealthy, hmatches⟩ := EngineRegistry.mem_eligible.mp hfirst.mem
      constructor
      · intro hroutes node' hfirst'
        rw [hfirst'.unique hfirst]
        exact (hroutes.able node rfl).2.1.2.2
      · intro hcapable
        have hnode : node.Able body := ⟨hhealthy, hmatches, hcapable node hfirst⟩
        constructor
        · intro node' hsent
          cases hsent
          exact ⟨hmem, hnode, fun other hother habler => hfirst.le (hable other hother habler)⟩
        · constructor
          · exact fun hrefused => absurd hrefused (not_refused client node _ _)
          · exact fun hall => absurd hnode (hall node hmem)

theorem endOfTime_pos : 0 < endOfTime := by decide

def Moment.first : Moment := ⟨0, endOfTime_pos⟩

def workerNode (tags : Tags) (capabilities : List String) : EngineNode :=
  ⟨"worker", "worker", "http://worker", tags, capabilities, .first, .first, true⟩

/-- The only node advertises `echo` and is sent an `infer` task. -/
theorem unable_node_chosen :
    ¬ ∀ ops client body, RoutesAbly (.run ops) body (runTaskAutoRoute client (.run ops) body) := by
  intro hall
  have hroutes := hall [.register (workerNode [] ["echo"])] ⟨fun _ _ => .ok .none, fun _ => false⟩
    ⟨"inference", "infer", [], [], 0, none, []⟩
  have hable := (hroutes.able (workerNode [] ["echo"]) rfl).2.1.2.2
  revert hable
  decide

/-- The pairs that tag parameters of the form `key=value` give. -/
def tagPairs (texts : List String) : Tags := texts.filterMap splitTag

/-- The node carries each of the pairs. -/
def EngineNode.Carries (node : EngineNode) (pairs : Tags) : Prop :=
  ∀ pair ∈ pairs, node.tags.lookup pair.1 = some pair.2

instance (node : EngineNode) (pairs : Tags) : Decidable (node.Carries pairs) :=
  inferInstanceAs (Decidable (∀ pair ∈ pairs, _))

/-- The list shows each registered node that carries the pairs once, and no
other. -/
def ListsExactly (registry : EngineRegistry) (pairs : Tags)
    (listed : Except ApiError EngineListResponse) : Prop :=
  ∃ response, listed = .ok response ∧ (response.items.map (·.engineId)).Nodup ∧
    (∀ item, item ∈ response.items ↔
      ∃ node ∈ registry.registered, node.Carries pairs ∧ item = node.toResponse) ∧
    response.total = (registry.registered.filter fun node => node.Carries pairs).length

/-- No key is given with two values. -/
def Consistent (pairs : Tags) : Prop :=
  ∀ pair ∈ pairs, ∀ pair' ∈ pairs, pair.1 = pair'.1 → pair.2 = pair'.2

theorem matchesTags_iff {node : EngineNode} {required : Tags} :
    node.matchesTags required = true ↔ node.Carries required := by
  simp [EngineNode.matchesTags, EngineNode.Carries]

/-- The filter of well-formed parameters: the pairs, put into a dict in order. -/
theorem tagFilter_eq {texts : List String} (hpairs : ∀ text ∈ texts, '=' ∈ text.toList)
    (filter : Tags) : tagFilter texts filter =
      .ok ((tagPairs texts).foldl (fun filter tag => Assoc.insert tag.1 tag.2 filter) filter) := by
  induction texts generalizing filter with
  | nil => rfl
  | cons text texts ih =>
      have hsplit : splitTag text ≠ none := by
        rw [splitTag, if_pos (hpairs text List.mem_cons_self)]
        simp
      cases htag : splitTag text with
      | none => exact absurd htag hsplit
      | some tag =>
          rw [tagFilter, htag, tagPairs, List.filterMap_cons_some htag]
          exact ih (fun other hmem => hpairs other (List.mem_cons_of_mem _ hmem)) _

/-- The dict that the pairs make of an empty one. -/
def lastValues (pairs : Tags) : Tags :=
  pairs.foldl (fun filter tag => Assoc.insert tag.1 tag.2 filter) []

theorem lastValues_concat (pairs : Tags) (pair : String × String) :
    lastValues (pairs ++ [pair]) = Assoc.insert pair.1 pair.2 (lastValues pairs) :=
  List.foldl_append

theorem nodup_lastValues (pairs : Tags) : (Assoc.keys (lastValues pairs)).Nodup := by
  induction pairs using List.reverseRecOn with
  | nil => exact List.nodup_nil
  | append_singleton pairs pair ih =>
      rw [lastValues_concat]
      exact Assoc.nodup_insert ih

/-- What the dict holds was given. -/
theorem mem_of_lastValues {pairs : Tags} {pair : String × String}
    (hmem : pair ∈ lastValues pairs) : pair ∈ pairs := by
  induction pairs using List.reverseRecOn with
  | nil => cases hmem
  | append_singleton pairs pair' ih =>
      rw [lastValues_concat] at hmem
      rcases Assoc.mem_insert hmem with hmem | heq
      · exact List.mem_append_left _ (ih hmem)
      · rw [heq]
        exact List.mem_append_right _ List.mem_cons_self

/-- Each key that was given is in the dict. -/
theorem exists_lastValues {pairs : Tags} {pair : String × String} (hmem : pair ∈ pairs) :
    ∃ value, (pair.1, value) ∈ lastValues pairs := by
  induction pairs using List.reverseRecOn with
  | nil => cases hmem
  | append_singleton pairs pair' ih =>
      rw [lastValues_concat]
      by_cases hkey : pair.1 = pair'.1
      · refine ⟨pair'.2, Assoc.mem_of_lookup ?_⟩
        rw [Assoc.lookup_insert, if_pos hkey]
      · rcases List.mem_append.mp hmem with hmem | hmem
        · obtain ⟨value, hvalue⟩ := ih hmem
          refine ⟨value, Assoc.mem_of_lookup ?_⟩
          rw [Assoc.lookup_insert, if_neg hkey]
          exact Assoc.lookup_of_mem (nodup_lastValues pairs) hvalue
        · rw [List.mem_singleton.mp hmem] at hkey
          exact absurd rfl hkey

/-- A node carries all pairs just where these agree and it carries the last ones. -/
theorem carries_iff {node : EngineNode} {pairs : Tags} :
    node.Carries pairs ↔ Consistent pairs ∧ node.Carries (lastValues pairs) := by
  constructor
  · intro hcarries
    constructor
    · intro pair hpair pair' hpair' hkey
      have hvalue := hcarries pair hpair
      rw [hkey, hcarries pair' hpair'] at hvalue
      exact (Option.some.inj hvalue).symm
    · exact fun pair hpair => hcarries pair (mem_of_lastValues hpair)
  · intro hlast pair hpair
    obtain ⟨value, hvalue⟩ := exists_lastValues hpair
    have hsame : pair.2 = value := hlast.1 pair hpair _ (mem_of_lastValues hvalue) rfl
    rw [hsame]
    exact hlast.2 _ hvalue

theorem listEngines_eq (registry : EngineRegistry) {tag : Option (List String)}
    (hpairs : ∀ text ∈ tag.getD [], '=' ∈ text.toList) :
    listEngines registry tag = .ok
      ⟨(sortedDescending (·.lastSeen) (registry.eligible (lastValues (tagPairs (tag.getD []))))).map
          (·.toResponse),
        (registry.eligible (lastValues (tagPairs (tag.getD [])))).length⟩ := by
  have hfilter : tagFilter (tag.getD []) [] = .ok (lastValues (tagPairs (tag.getD []))) :=
    tagFilter_eq hpairs []
  rw [listEngines, hfilter, Except.map]
  simp only [EngineRegistry.select_eq, List.length_map, (sortedDescending_perm _ _).length_eq]

/-- What the answer shows, by membership. -/
theorem mem_listed {registry : EngineRegistry} {tags : Tags} {item : EngineNodeResponse} :
    item ∈ (sortedDescending (·.lastSeen) (registry.eligible tags)).map (·.toResponse) ↔
      ∃ node ∈ registry.registered, node.healthy = true ∧ node.Carries tags ∧
        item = node.toResponse := by
  simp only [List.mem_map, mem_sortedDescending, EngineRegistry.mem_eligible, matchesTags_iff]
  constructor
  · intro hmem
    obtain ⟨node, ⟨hmem, hhealthy, hcarries⟩, hitem⟩ := hmem
    exact ⟨node, hmem, hhealthy, hcarries, hitem.symm⟩
  · intro hmem
    obtain ⟨node, hmem, hhealthy, hcarries, hitem⟩ := hmem
    exact ⟨node, ⟨hmem, hhealthy, hcarries⟩, hitem.symm⟩

theorem EngineRegistry.Filed.listed_nodup {registry : EngineRegistry} (hfiled : registry.Filed)
    (tags : Tags) : (((sortedDescending (·.lastSeen) (registry.eligible tags)).map
      (·.toResponse)).map (·.engineId)).Nodup := by
  have hids : (fun node : EngineNode => node.toResponse.engineId) = (·.engineId) := rfl
  have hsub : ((registry.eligible tags).map (·.engineId)).Nodup :=
    hfiled.ids_nodup.sublist (List.filter_sublist.map _)
  rw [List.map_map]
  exact ((sortedDescending_perm _ _).map _).nodup_iff.mpr hsub

/-- The answer is exact just where it leaves out no unhealthy node, and takes no
node for its value of a key that was given with another value too. -/
theorem lists_exactly_iff (ops : List ClusterOp) (tag : Option (List String))
    (hpairs : ∀ text ∈ tag.getD [], '=' ∈ text.toList) :
    ListsExactly (.run ops) (tagPairs (tag.getD [])) (listEngines (.run ops) tag) ↔
      (∀ node ∈ (EngineRegistry.run ops).registered,
        node.Carries (tagPairs (tag.getD [])) → node.healthy = true) ∧
      (Consistent (tagPairs (tag.getD [])) ∨
        ∀ node ∈ (EngineRegistry.run ops).registered, node.healthy = true →
          ¬ node.Carries (lastValues (tagPairs (tag.getD [])))) := by
  have hfiled := EngineRegistry.filed_run ops
  rw [listEngines_eq _ hpairs]
  generalize EngineRegistry.run ops = registry at hfiled ⊢
  generalize tagPairs (tag.getD []) = pairs
  constructor
  · intro hlists
    obtain ⟨response, heq, -, hitems, -⟩ := hlists
    cases heq
    constructor
    · intro node hmem hcarries
      have hlisted := (hitems node.toResponse).mpr ⟨node, hmem, hcarries, rfl⟩
      obtain ⟨node', hmem', hhealthy, -, hsame⟩ := mem_listed.mp hlisted
      rw [hfiled.eq_of_engineId hmem hmem' (congrArg EngineNodeResponse.engineId hsame)]
      exact hhealthy
    · by_cases hconsistent : Consistent pairs
      · exact .inl hconsistent
      · right
        intro node hmem hhealthy hcarries
        have hlisted := mem_listed.mpr ⟨node, hmem, hhealthy, hcarries, rfl⟩
        obtain ⟨node', -, hcarries', -⟩ := (hitems _).mp hlisted
        exact hconsistent (carries_iff.mp hcarries').1
  · intro hwhen
    obtain ⟨hhealthy, hvalues⟩ := hwhen
    have hsame : ∀ node ∈ registry.registered,
        (node.healthy = true ∧ node.Carries (lastValues pairs) ↔ node.Carries pairs) := by
      intro node hmem
      have hpairs' := @carries_iff node pairs
      rw [hpairs']
      constructor
      · intro hnode
        rcases hvalues with hconsistent | hnone
        · exact ⟨hconsistent, hnode.2⟩
        · exact absurd hnode.2 (hnone node hmem hnode.1)
      · intro hnode
        exact ⟨hhealthy node hmem (hpairs'.mpr hnode), hnode.2⟩
    refine ⟨_, rfl, hfiled.listed_nodup _, ?_, ?_⟩
    · intro item
      rw [mem_listed]
      apply exists_congr
      intro node
      apply and_congr_right
      intro hmem
      rw [← and_assoc, hsame node hmem]
    · apply congrArg List.length
      apply List.filter_congr
      intro node hmem
      rw [Bool.eq_iff_iff, Bool.and_eq_true, matchesTags_iff, decide_eq_true_iff]
      exact hsame node hmem

def taggedWorker : List ClusterOp :=
  [.register (workerNode [("zone", "a"), ("gpu", "no")] ["echo"])]

/-- One node, and two parameters that it carries. -/
theorem lists_exactly_iff_tagged :
    ListsExactly (.run taggedWorker) (tagPairs ["zone=a", "gpu=no"])
      (listEngines (.run taggedWorker) (some ["zone=a", "gpu=no"])) := by
  apply (lists_exactly_iff taggedWorker (some ["zone=a", "gpu=no"]) (by decide)).mpr
  constructor
  · intro node hmem _
    rw [List.mem_singleton.mp hmem]
    rfl
  · left
    simp [tagPairs, splitTag, Consistent]

/-- The only node says that it is unhealthy, and no tags are given. -/
theorem unhealthy_node_vanishes :
    ¬ ∀ ops tag, (∀ text ∈ Option.getD tag [], '=' ∈ text.toList) →
      ListsExactly (.run ops) (tagPairs (tag.getD [])) (listEngines (.run ops) tag) := by
  intro hall
  have hlists := hall (taggedWorker ++ [.heartbeat "worker" false .first]) none (by simp)
  obtain ⟨response, hlisted, -, -, htotal⟩ := hlists
  have hnone : response.total = 0 := by
    cases hlisted
    rfl
  rw [hnone] at htotal
  exact absurd htotal (by decide)

end Conductor
