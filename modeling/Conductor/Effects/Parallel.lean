/-
Programs that run in parallel and are waited for.  A schedule names the program
that makes the next call, so for each schedule the whole is one program again.
What a program has done is told by its path: its calls with their answers, the
first one first.
-/
import Mathlib.Data.List.Forall2
import Conductor.Effects.Block

namespace Conductor.Effects

universe u v w

variable {C : Type u} {A : C → Type v} {α β : Type w}

namespace Prog

/-- The program has made these calls, got these answers and ended with this
value. -/
inductive Path : Prog C A α → List (Event C A) → α → Prop
  | done (value : α) : Path (.done value) [] value
  | call (c : C) (next : A c → Prog C A α) (answer : A c) {events : List (Event C A)} {value : α}
      (hnext : Path (next answer) events value) : Path (.call c next) (⟨c, answer⟩ :: events) value

@[simp] theorem path_done {value value' : α} {events : List (Event C A)} :
    Path (.done value) events value' ↔ events = [] ∧ value' = value := by
  constructor
  · rintro ⟨⟩
    exact ⟨rfl, rfl⟩
  · rintro ⟨rfl, rfl⟩
    exact .done value'

@[simp] theorem not_path_outOfFuel {events : List (Event C A)} {value : α} :
    ¬ Path (.outOfFuel : Prog C A α) events value := by
  rintro ⟨⟩

@[simp] theorem path_call {c : C} {next : A c → Prog C A α} {events : List (Event C A)}
    {value : α} :
    Path (.call c next) events value ↔
      ∃ answer rest, events = ⟨c, answer⟩ :: rest ∧ Path (next answer) rest value := by
  constructor
  · rintro ⟨⟩
    exact ⟨_, _, rfl, ‹_›⟩
  · rintro ⟨answer, rest, rfl, hnext⟩
    exact .call c next answer hnext

theorem path_bind {p : Prog C A α} {f : α → Prog C A β} {events : List (Event C A)} {value : β} :
    Path (p.bind f) events value ↔
      ∃ before middle after, events = before ++ after ∧ Path p before middle ∧
        Path (f middle) after value := by
  induction p generalizing events with
  | done middle =>
      constructor
      · intro hpath
        exact ⟨[], middle, events, rfl, .done middle, hpath⟩
      · rintro ⟨before, middle', after, rfl, hbefore, hafter⟩
        obtain ⟨rfl, rfl⟩ := path_done.mp hbefore
        exact hafter
  | outOfFuel => simp
  | call c next ih =>
      simp only [call_bind, path_call, ih]
      constructor
      · rintro ⟨answer, rest, rfl, before, middle, after, rfl, hbefore, hafter⟩
        exact ⟨⟨c, answer⟩ :: before, middle, after, rfl, ⟨answer, before, rfl, hbefore⟩, hafter⟩
      · rintro ⟨_, middle, after, rfl, ⟨answer, before, rfl, hbefore⟩, hafter⟩
        exact ⟨answer, before ++ after, rfl, before, middle, after, rfl, hbefore, hafter⟩

/-- An execution that ends adds a path to the history. -/
theorem exec_path {W : Type*} {M : Machine W C A} {p : Prog C A α} {k k' : Config W C A}
    {value : α} (hexec : p.exec M k = (some value, k')) :
    ∃ events, p.Path events value ∧ k'.history = events.reverse ++ k.history := by
  induction p generalizing k with
  | done value =>
      cases hexec
      exact ⟨[], .done value, rfl⟩
  | outOfFuel => cases hexec
  | call c next ih =>
      obtain ⟨events, hpath, hhistory⟩ := ih _ hexec
      refine ⟨_, .call c next _ hpath, ?_⟩
      rw [hhistory]
      simp [Machine.step]

/-- The values of programs that are all done. -/
def values : List (Prog C A α) → Option (List α)
  | [] => some []
  | .done value :: programs => (values programs).map (value :: ·)
  | _ => none

/-- Run the programs as the schedule says and wait for all of them.  A turn of
a program that is done passes; a schedule that ends too early is no run. -/
def interleave : List (Prog C A α) → List Nat → Prog C A (List α)
  | programs, [] =>
      match values programs with
      | some values => .done values
      | none => .outOfFuel
  | programs, i :: schedule =>
      match programs[i]? with
      | some (.call c next) =>
          .call c fun answer => interleave (programs.set i (next answer)) schedule
      | _ => interleave programs schedule

/-- What one of the programs did: its path and its value. -/
structure Ran (C : Type u) (A : C → Type v) (α : Type w) where
  path : List (Event C A)
  value : α

/-- The program did this. -/
def Did (p : Prog C A α) (ran : Ran C A α) : Prop := p.Path ran.path ran.value

theorem did_of_values {programs : List (Prog C A α)} {values : List α}
    (hvalues : Prog.values programs = some values) :
    List.Forall₂ Did programs (values.map fun value => ⟨[], value⟩) := by
  induction programs generalizing values with
  | nil =>
      cases hvalues
      exact .nil
  | cons p programs ih =>
      cases p with
      | done value =>
          obtain ⟨rest, hrest, rfl⟩ := Option.map_eq_some_iff.mp hvalues
          exact .cons (.done value) (ih hrest)
      | outOfFuel => cases hvalues
      | call c next => cases hvalues

/-- A program that has a call behind it, with the call before it again. -/
theorem did_of_set {programs : List (Prog C A α)} {i : Nat} {c : C} {next : A c → Prog C A α}
    (hprogram : programs[i]? = some (.call c next)) {answer : A c} {rans : List (Ran C A α)}
    (hrans : List.Forall₂ Did (programs.set i (next answer)) rans) :
    ∃ rans', List.Forall₂ Did programs rans' ∧ rans'.map Ran.value = rans.map Ran.value ∧
      (⟨c, answer⟩ :: rans.flatMap Ran.path).Perm (rans'.flatMap Ran.path) := by
  induction programs generalizing i rans with
  | nil => cases hprogram
  | cons p programs ih =>
      cases i with
      | zero =>
          cases hprogram
          cases hrans with
          | @cons _ ran _ rans hhead htail =>
              refine ⟨⟨⟨c, answer⟩ :: ran.path, ran.value⟩ :: rans, .cons ?_ htail, rfl, .refl _⟩
              exact .call c next answer hhead
      | succ i =>
          cases hrans with
          | @cons _ ran _ rans hhead htail =>
              obtain ⟨rans', hdid, hvalues, hperm⟩ := ih hprogram htail
              refine ⟨ran :: rans', .cons hhead hdid, congrArg (ran.value :: ·) hvalues, ?_⟩
              exact List.perm_middle.symm.trans (hperm.append_left ran.path)

/-- Whatever the schedule, each program went its own way, the values come in
the order of the programs, and no other call was made. -/
theorem interleave_path {programs : List (Prog C A α)} {schedule : List Nat}
    {events : List (Event C A)} {values : List α}
    (hpath : (interleave programs schedule).Path events values) :
    ∃ rans, List.Forall₂ Did programs rans ∧ values = rans.map Ran.value ∧
      events.Perm (rans.flatMap Ran.path) := by
  induction schedule generalizing programs events with
  | nil =>
      rw [interleave] at hpath
      cases hvalues : Prog.values programs with
      | none => simp [hvalues] at hpath
      | some ended =>
          rw [hvalues] at hpath
          obtain ⟨rfl, rfl⟩ := path_done.mp hpath
          refine ⟨_, did_of_values hvalues, by simp [Function.comp_def], ?_⟩
          simp [List.flatMap_map]
  | cons i schedule ih =>
      rw [interleave] at hpath
      split at hpath
      · rename_i c next hprogram
        obtain ⟨answer, rest, rfl, hrest⟩ := path_call.mp hpath
        obtain ⟨rans, hdid, rfl, hperm⟩ := ih hrest
        obtain ⟨rans', hdid', hvalues, hperm'⟩ := did_of_set hprogram hdid
        exact ⟨rans', hdid', hvalues.symm, (hperm.cons _).trans hperm'⟩
      · exact ih hpath

/-- The program ends after at most `n` calls if they are answered well, with a
value that is `good`. -/
def EndsWithin (well : (c : C) → A c → Prop) (good : α → Prop) : Nat → Prog C A α → Prop
  | _, .done value => good value
  | _, .outOfFuel => False
  | 0, .call _ _ => False
  | n + 1, .call c next => ∀ answer, well c answer → EndsWithin well good n (next answer)

variable {well : (c : C) → A c → Prop} {good : α → Prop}

@[simp] theorem endsWithin_done {n : Nat} {value : α} :
    EndsWithin well good n (.done value) ↔ good value := by
  cases n <;> rfl

@[simp] theorem not_endsWithin_outOfFuel {n : Nat} : ¬ EndsWithin well good n .outOfFuel := by
  cases n <;> exact id

@[simp] theorem endsWithin_call {n : Nat} {c : C} {next : A c → Prog C A α} :
    EndsWithin well good (n + 1) (.call c next) ↔
      ∀ answer, well c answer → EndsWithin well good n (next answer) := Iff.rfl

/-- A monitor that only takes the answers for granted. -/
def trusting (well : (c : C) → A c → Prop) : Monitor Unit C A where
  initial := ()
  next _ _ _ := ()
  allows _ _ := True
  answers := well

theorem values_of_endsWithin {programs : List (Prog C A α)}
    (hends : ∀ (i : Nat) p, programs[i]? = some p → EndsWithin well good 0 p) :
    ∃ values, Prog.values programs = some values ∧ ∀ value ∈ values, good value := by
  induction programs with
  | nil => exact ⟨[], rfl, by simp⟩
  | cons p programs ih =>
      obtain ⟨values, hvalues, hgood⟩ := ih fun i p hp => hends (i + 1) p hp
      have hhead := hends 0 p rfl
      cases p with
      | done value =>
          refine ⟨value :: values, by rw [Prog.values, hvalues]; rfl, ?_⟩
          exact List.forall_mem_cons.mpr ⟨hhead, hgood⟩
      | outOfFuel => exact hhead.elim
      | call c next => exact hhead.elim

/-- A schedule that gives every program its turns runs all of them to their
ends. -/
theorem wp_interleave {schedule : List Nat} {programs : List (Prog C A α)}
    (hends : ∀ (i : Nat) p, programs[i]? = some p → EndsWithin well good (schedule.count i) p) :
    (interleave programs schedule).wp (trusting well).totalLogic
      (fun values _ => ∀ value ∈ values, good value) () := by
  induction schedule generalizing programs with
  | nil =>
      obtain ⟨values, hvalues, hgood⟩ := values_of_endsWithin hends
      rw [interleave, hvalues]
      exact hgood
  | cons i schedule ih =>
      rw [interleave]
      split
      · rename_i c next hprogram
        refine ⟨trivial, fun answer hanswer => ih fun j p hp => ?_⟩
        by_cases hj : i = j
        · subst hj
          have hcall := hends i _ hprogram
          rw [List.count_cons_self] at hcall
          rw [List.getElem?_set_self (List.getElem?_eq_some_iff.mp hprogram).1] at hp
          cases hp
          exact hcall answer hanswer
        · rw [List.getElem?_set_ne hj] at hp
          have hother := hends j p hp
          rwa [List.count_cons_of_ne (fun h => hj h)] at hother
      · rename_i hprogram
        refine ih fun j p hp => ?_
        have hother := hends j p hp
        by_cases hj : i = j
        · subst hj
          cases p with
          | done value => exact endsWithin_done.mpr (endsWithin_done.mp hother)
          | outOfFuel => exact (not_endsWithin_outOfFuel hother).elim
          | call c next => exact (hprogram c next hp).elim
        · rwa [List.count_cons_of_ne (fun h => hj h)] at hother

end Prog

namespace Block

variable {R : C → Type} {X σ τ γ δ : Type}

/-- The results in order; the first exception in that order is raised. -/
def results : List (Except X γ) → Except X (List γ)
  | [] => .ok []
  | .error e :: _ => .error e
  | .ok value :: outcomes => (results outcomes).map (value :: ·)

/-- Run blocks in parallel, wait for all of them, and take their results. -/
def parallel (schedule : List Nat) (blocks : List (Block C R X Unit γ)) :
    Block C R X σ (List γ) :=
  fun x => (Prog.interleave (blocks.map fun m => m.run ()) schedule).bind fun outcomes =>
    .done (results (outcomes.map Prod.fst), x)

/-- The block has made these calls, got these answers and returned. -/
def Returned (m : Block C R X σ γ) (x : σ) (events : List (Event C (Reply R X))) (value : γ)
    (y : σ) : Prop :=
  (m.run x).Path events (.ok value, y)

variable {m : Block C R X σ γ} {x y : σ} {events : List (Event C (Reply R X))}

@[simp] theorem returned_pure {value value' : γ} :
    (pure value : Block C R X σ γ).Returned x events value' y ↔
      events = [] ∧ value' = value ∧ y = x := by
  change Prog.Path (.done (Except.ok value, x)) events (Except.ok value', y) ↔ _
  simp

@[simp] theorem returned_perform {c : C} {value : R c} :
    (perform c : Block C R X σ (R c)).Returned x events value y ↔
      events = [⟨c, (Except.ok value : Reply R X c)⟩] ∧ y = x := by
  change Prog.Path (.call c fun reply => .done (reply, x)) events (Except.ok value, y) ↔ _
  simp only [Prog.path_call, Prog.path_done]
  constructor
  · rintro ⟨answer, rest, rfl, rfl, hvalue⟩
    obtain ⟨rfl, rfl⟩ := Prod.mk.inj hvalue
    exact ⟨rfl, rfl⟩
  · rintro ⟨rfl, rfl⟩
    exact ⟨Except.ok value, [], rfl, rfl, rfl⟩

theorem returned_bind {f : γ → Block C R X σ δ} {value : δ} {z : σ} :
    (m >>= f).Returned x events value z ↔
      ∃ before middle y after, events = before ++ after ∧ m.Returned x before middle y ∧
        (f middle).Returned y after value z := by
  change Prog.Path (Prog.bind (m.run x) _) events (Except.ok value, z) ↔ _
  rw [Prog.path_bind]
  constructor
  · rintro ⟨before, ⟨e | middle, y⟩, after, rfl, hbefore, hafter⟩
    · cases hafter
    · exact ⟨before, middle, y, after, rfl, hbefore, hafter⟩
  · rintro ⟨before, middle, y, after, rfl, hbefore, hafter⟩
    exact ⟨before, (Except.ok middle, y), after, rfl, hbefore, hafter⟩

theorem eq_map_of_results {outcomes : List (Except X γ × Unit)} {values : List γ}
    (hresults : results (outcomes.map Prod.fst) = .ok values) :
    outcomes = values.map fun value => (.ok value, ()) := by
  induction outcomes generalizing values with
  | nil =>
      cases hresults
      rfl
  | cons outcome outcomes ih =>
      obtain ⟨e | value, _⟩ := outcome
      · cases hresults
      · cases hrest : results (outcomes.map Prod.fst) with
        | error e => simp [results, hrest, Except.map] at hresults
        | ok rest =>
            simp only [List.map_cons, results, hrest, Except.map, Except.ok.injEq] at hresults
            rw [← hresults, ih hrest]
            rfl

theorem results_ok {outcomes : List (Except X γ × Unit)}
    (hoks : ∀ outcome ∈ outcomes, ∃ value, outcome.1 = .ok value) :
    ∃ values, results (outcomes.map Prod.fst) = .ok values := by
  induction outcomes with
  | nil => exact ⟨[], rfl⟩
  | cons outcome outcomes ih =>
      rw [List.forall_mem_cons] at hoks
      obtain ⟨value, hvalue⟩ := hoks.1
      obtain ⟨values, hvalues⟩ := ih hoks.2
      exact ⟨value :: values, by rw [List.map_cons, hvalue, results, hvalues]; rfl⟩

theorem returned_of_did {blocks : List (Block C R X Unit γ)}
    {rans : List (Prog.Ran C (Reply R X) (Except X γ × Unit))} {values : List γ}
    (hdid : List.Forall₂ Prog.Did (blocks.map fun m => m.run ()) rans)
    (hvalues : rans.map Prog.Ran.value = values.map fun value => (.ok value, ())) :
    ∃ pairs : List (List (Event C (Reply R X)) × γ),
      List.Forall₂ (fun m pair => m.Returned () pair.1 pair.2 ()) blocks pairs ∧
        values = pairs.map Prod.snd ∧ rans.flatMap Prog.Ran.path = pairs.flatMap Prod.fst := by
  induction blocks generalizing rans values with
  | nil =>
      cases hdid
      rw [List.map_nil, eq_comm, List.map_eq_nil_iff] at hvalues
      exact ⟨[], .nil, hvalues, rfl⟩
  | cons m blocks ih =>
      cases hdid with
      | @cons _ ran _ rans hhead htail =>
          cases values with
          | nil => cases hvalues
          | cons value values =>
              rw [List.map_cons, List.map_cons, List.cons.injEq] at hvalues
              obtain ⟨pairs, hreturned, rfl, hpaths⟩ := ih htail hvalues.2
              refine ⟨(ran.path, value) :: pairs, .cons ?_ hreturned, rfl, ?_⟩
              · rw [Returned, ← hvalues.1]
                exact hhead
              · rw [List.flatMap_cons, List.flatMap_cons, hpaths]

/-- Parallel blocks that return have each returned on their own, in any order
of their calls. -/
theorem returned_parallel {schedule : List Nat} {blocks : List (Block C R X Unit γ)}
    {values : List γ} (hreturned : (parallel schedule blocks).Returned x events values y) :
    y = x ∧ ∃ pairs : List (List (Event C (Reply R X)) × γ),
      List.Forall₂ (fun m pair => m.Returned () pair.1 pair.2 ()) blocks pairs ∧
        values = pairs.map Prod.snd ∧ events.Perm (pairs.flatMap Prod.fst) := by
  obtain ⟨before, outcomes, after, rfl, hbefore, hafter⟩ := Prog.path_bind.mp hreturned
  obtain ⟨rfl, hended⟩ := Prog.path_done.mp hafter
  obtain ⟨hresults, rfl⟩ := Prod.mk.inj hended
  obtain ⟨rans, hdid, hvalues, hperm⟩ := Prog.interleave_path hbefore
  have houtcomes := eq_map_of_results hresults.symm
  rw [hvalues] at houtcomes
  obtain ⟨pairs, hall, hvalues, hpaths⟩ := returned_of_did hdid houtcomes
  refine ⟨rfl, pairs, hall, hvalues, ?_⟩
  rwa [List.append_nil, ← hpaths]

/-- Parallel blocks that end when they are answered well return, if each has
its turns. -/
theorem wp_parallel {well : (c : C) → Reply R X c → Prop} {schedule : List Nat}
    {blocks : List (Block C R X Unit γ)}
    (hends : ∀ (i : Nat) m, blocks[i]? = some m →
      (m.run ()).EndsWithin well (fun outcome => ∃ value, outcome.1 = .ok value)
        (schedule.count i)) :
    (parallel schedule blocks).wp (Prog.trusting well).totalLogic
      (fun outcome _ _ => ∃ values, outcome = .ok values) x () := by
  change ((Prog.interleave _ schedule).bind _).wp _ _ ()
  rw [Prog.wp_bind]
  have hthreads : ∀ i p, (blocks.map fun m => m.run ())[i]? = some p →
      Prog.EndsWithin well (fun outcome => ∃ value, outcome.1 = .ok value)
        (schedule.count i) p := by
    intro i p hp
    rw [List.getElem?_map] at hp
    obtain ⟨m, hm, rfl⟩ := Option.map_eq_some_iff.mp hp
    exact hends i m hm
  refine Prog.wp_mono (Prog.trusting well).totalLogic_monotone ?_ (Prog.wp_interleave hthreads)
  intro outcomes _ hoks
  exact results_ok hoks

end Block

end Conductor.Effects
