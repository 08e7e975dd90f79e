import Mathlib.Logic.Basic

/-!
# Runs of interleaved steps

A `Machine` is a state and what each event does to it; an event that is not
possible in a state gives no successor. When the state holds a shared store
together with the progress of every process, and an event is one statement of one
process, the runs of the machine are the interleavings of the processes: a
process that stops between two statements is one whose next event never comes.

`Steps` lists the transitions taken, newest first. Invariants are proved by one
step lemma; a condition on the steps of a run (a guard the environment is
expected to keep) and facts about the transitions taken so far may be used in it.
-/

namespace Talos.Database

structure Machine (σ ε : Type) where
  init : σ
  step : σ → ε → Option σ

structure Transition (σ ε : Type) where
  pre : σ
  event : ε
  post : σ

variable {σ ε : Type} {m : Machine σ ε}

/-- `Steps m s h t`: the transitions `h`, newest first, lead from `s` to `t`. -/
inductive Steps (m : Machine σ ε) (s : σ) : List (Transition σ ε) → σ → Prop where
  | refl : Steps m s [] s
  | step {h : List (Transition σ ε)} {t t' : σ} {e : ε} :
      Steps m s h t → m.step t e = some t' → Steps m s (⟨t, e, t'⟩ :: h) t'

abbrev Run (m : Machine σ ε) := Steps m m.init

def Reachable (m : Machine σ ε) (s : σ) : Prop := ∃ h, Run m h s

/-- A property of the transitions taken and the state they led to holds along a
run, if every step that meets `C` keeps it and every step of the run meets `C`. -/
theorem Steps.history {C : Transition σ ε → Prop} {I : List (Transition σ ε) → σ → Prop}
    {s t : σ} {h : List (Transition σ ε)} (steps : Steps m s h t) (each : ∀ r ∈ h, C r)
    (start : I [] s)
    (keep : ∀ {h t e t'}, I h t → m.step t e = some t' → C ⟨t, e, t'⟩ → I (⟨t, e, t'⟩ :: h) t') :
    I h t := by
  induction steps with
  | refl => exact start
  | step _ ok ih =>
      exact keep (ih fun r mem => each r (List.mem_cons_of_mem _ mem)) ok
        (each _ List.mem_cons_self)

theorem Steps.invariant_along {C : Transition σ ε → Prop} {I : σ → Prop} {s t : σ}
    {h : List (Transition σ ε)} (steps : Steps m s h t) (each : ∀ r ∈ h, C r) (start : I s)
    (keep : ∀ {t e t'}, I t → m.step t e = some t' → C ⟨t, e, t'⟩ → I t') : I t :=
  Steps.history (I := fun _ => I) steps each start keep

theorem Steps.invariant {I : σ → Prop} {s t : σ} {h : List (Transition σ ε)}
    (steps : Steps m s h t) (start : I s)
    (keep : ∀ {t e t'}, I t → m.step t e = some t' → I t') : I t :=
  steps.invariant_along (C := fun _ => True) (fun _ _ => trivial) start
    fun holds ok _ => keep holds ok

theorem Reachable.invariant {I : σ → Prop} {s : σ} (reach : Reachable m s) (start : I m.init)
    (keep : ∀ {t e t'}, I t → m.step t e = some t' → I t') : I s :=
  reach.elim fun _ run => run.invariant start keep

theorem Steps.trans {s t u : σ} {h h' : List (Transition σ ε)} (first : Steps m s h t)
    (second : Steps m t h' u) : Steps m s (h' ++ h) u := by
  induction second with
  | refl => exact first
  | step _ ok ih => exact .step ih ok

/-- A run passes through both ends of each of its transitions. -/
theorem Steps.split {s t : σ} {later earlier : List (Transition σ ε)} {r : Transition σ ε}
    (steps : Steps m s (later ++ r :: earlier) t) :
    Steps m s earlier r.pre ∧ m.step r.pre r.event = some r.post ∧ Steps m r.post later t := by
  induction later generalizing t with
  | nil =>
      cases steps with
      | step steps ok => exact ⟨steps, ok, .refl⟩
  | cons q later ih =>
      cases steps with
      | step steps ok =>
          obtain ⟨before, taken, after⟩ := ih steps
          exact ⟨before, taken, .step after ok⟩

theorem Steps.taken {s t : σ} {h : List (Transition σ ε)} (steps : Steps m s h t)
    {r : Transition σ ε} (mem : r ∈ h) : m.step r.pre r.event = some r.post := by
  obtain ⟨later, earlier, rfl⟩ := List.append_of_mem mem
  exact steps.split.2.1

/-- A property of every transition of a run and the transitions before it. -/
def Throughout (P : List (Transition σ ε) → Transition σ ε → Prop) : List (Transition σ ε) → Prop
  | [] => True
  | r :: earlier => P earlier r ∧ Throughout P earlier

instance instDecidableThroughout
    {P : List (Transition σ ε) → Transition σ ε → Prop} [∀ h, DecidablePred (P h)] :
    (h : List (Transition σ ε)) → Decidable (Throughout P h)
  | [] => .isTrue trivial
  | r :: earlier =>
      have : Decidable (Throughout P earlier) := instDecidableThroughout earlier
      inferInstanceAs (Decidable (P earlier r ∧ Throughout P earlier))

theorem Steps.throughout {C : Transition σ ε → Prop} {I : List (Transition σ ε) → σ → Prop}
    {P : List (Transition σ ε) → Transition σ ε → Prop} {s t : σ} {h : List (Transition σ ε)}
    (steps : Steps m s h t) (each : ∀ r ∈ h, C r) (start : I [] s)
    (keep : ∀ {h t e t'}, I h t → m.step t e = some t' → C ⟨t, e, t'⟩ → I (⟨t, e, t'⟩ :: h) t')
    (here : ∀ {h t e t'}, I h t → m.step t e = some t' → C ⟨t, e, t'⟩ → P h ⟨t, e, t'⟩) :
    Throughout P h := by
  have both : I h t ∧ Throughout P h := by
    refine steps.history (I := fun h t => I h t ∧ Throughout P h) each ⟨start, trivial⟩ ?_
    rintro h t e t' ⟨holds, before⟩ ok meets
    exact ⟨keep holds ok meets, here holds ok meets, before⟩
  exact both.2

theorem Steps.throughout_iff {I : List (Transition σ ε) → σ → Prop}
    {P : List (Transition σ ε) → Transition σ ε → Prop} {Q : Transition σ ε → Prop} {s t : σ}
    {h : List (Transition σ ε)} (steps : Steps m s h t) (start : I [] s)
    (keep : ∀ {h t e t'}, I h t → m.step t e = some t' → I (⟨t, e, t'⟩ :: h) t')
    (here : ∀ {h t e t'}, I h t → m.step t e = some t' → (P h ⟨t, e, t'⟩ ↔ Q ⟨t, e, t'⟩)) :
    Throughout P h ↔ ∀ r ∈ h, Q r := by
  have both : I h t ∧ (Throughout P h ↔ ∀ r ∈ h, Q r) := by
    refine steps.history (C := fun _ => True)
      (I := fun h t => I h t ∧ (Throughout P h ↔ ∀ r ∈ h, Q r)) (fun _ _ => trivial)
      ⟨start, iff_of_true trivial nofun⟩ ?_
    rintro h t e t' ⟨holds, before⟩ ok -
    refine ⟨keep holds ok, ?_⟩
    rw [List.forall_mem_cons, ← before, ← here holds ok]
    rfl
  exact both.2

/-- The states of a run are all good if every step meets the condition that keeps a state good. -/
theorem Steps.states_iff {I G : σ → Prop} {Q : Transition σ ε → Prop} {s t : σ}
    {h : List (Transition σ ε)} (steps : Steps m s h t) (start : I s) (good : G s)
    (keep : ∀ {t e t'}, I t → m.step t e = some t' → I t')
    (here : ∀ {t e t'}, I t → G t → m.step t e = some t' → (G t' ↔ Q ⟨t, e, t'⟩)) :
    (∀ r ∈ h, G r.post) ↔ ∀ r ∈ h, Q r := by
  have all : I t ∧ ((∀ r ∈ h, G r.post) → G t) ∧ ((∀ r ∈ h, G r.post) ↔ ∀ r ∈ h, Q r) := by
    induction steps with
    | refl => exact ⟨start, fun _ => good, iff_of_true nofun nofun⟩
    | @step h t t' e _ ok ih =>
        obtain ⟨holds, last, same⟩ := ih
        refine ⟨keep holds ok, fun all => all _ List.mem_cons_self, ?_⟩
        rw [List.forall_mem_cons, List.forall_mem_cons, ← same]
        exact and_congr_left fun all => here holds (last all) ok
  exact all.2.2

theorem Reachable.init : Reachable m m.init := ⟨[], .refl⟩

theorem Reachable.step {s s' : σ} {e : ε} (reach : Reachable m s) (ok : m.step s e = some s') :
    Reachable m s' :=
  reach.elim fun _ run => ⟨_, .step run ok⟩

/-! ### Playing a schedule -/

/-- The transitions and the state a list of events leads to, oldest event first;
an event that is not possible is passed over. -/
def Machine.play (m : Machine σ ε) :
    List ε → List (Transition σ ε) × σ → List (Transition σ ε) × σ
  | [], run => run
  | e :: rest, (h, s) =>
      match m.step s e with
      | some s' => m.play rest (⟨s, e, s'⟩ :: h, s')
      | none => m.play rest (h, s)

/-- So a concrete run is exhibited by computing `play`. -/
theorem Machine.play_steps {s t : σ} {h : List (Transition σ ε)} (steps : Steps m s h t)
    (events : List ε) : Steps m s (m.play events (h, t)).1 (m.play events (h, t)).2 := by
  induction events generalizing h t with
  | nil => exact steps
  | cons e rest ih =>
      simp only [play]
      split
      · next ok => exact ih (.step steps ok)
      · exact ih steps

/-- Every transition played is one of the events of the list. -/
theorem Machine.mem_play {events : List ε} {h : List (Transition σ ε)} {s : σ}
    {r : Transition σ ε} (mem : r ∈ (m.play events (h, s)).1) : r ∈ h ∨ r.event ∈ events := by
  induction events generalizing h s with
  | nil => exact .inl mem
  | cons e rest ih =>
      simp only [play] at mem
      split at mem
      · rcases ih mem with earlier | later
        · rcases List.mem_cons.mp earlier with rfl | earlier
          · exact .inr List.mem_cons_self
          · exact .inl earlier
        · exact .inr (List.mem_cons_of_mem _ later)
      · exact (ih mem).imp_right (List.mem_cons_of_mem _)

/-- The state that a list of events leads to. -/
def Machine.final (m : Machine σ ε) (events : List ε) (s : σ) : σ :=
  events.foldl (fun s e => (m.step s e).getD s) s

theorem Machine.final_append (events later : List ε) (s : σ) :
    m.final (events ++ later) s = m.final later (m.final events s) := List.foldl_append

theorem Machine.final_cons {s s' : σ} {e : ε} (ok : m.step s e = some s') (rest : List ε) :
    m.final (e :: rest) s = m.final rest s' := by
  rw [final, List.foldl_cons, ok]
  rfl

theorem Machine.final_pass {s : σ} {e : ε} (impossible : m.step s e = none) (rest : List ε) :
    m.final (e :: rest) s = m.final rest s := by
  rw [final, List.foldl_cons, impossible]
  rfl

theorem Machine.play_snd (events : List ε) (h : List (Transition σ ε)) (s : σ) :
    (m.play events (h, s)).2 = m.final events s := by
  induction events generalizing h s with
  | nil => rfl
  | cons e rest ih =>
      simp only [play]
      split
      · next ok => rw [ih, final_cons ok]
      · next impossible => rw [ih, final_pass impossible]

theorem Machine.play_run (m : Machine σ ε) (events : List ε) :
    Run m (m.play events ([], m.init)).1 (m.play events ([], m.init)).2 :=
  play_steps .refl events

theorem Machine.play_from (m : Machine σ ε) (s : σ) (events : List ε) :
    Steps m s (m.play events ([], s)).1 (m.play events ([], s)).2 :=
  play_steps .refl events

end Talos.Database
