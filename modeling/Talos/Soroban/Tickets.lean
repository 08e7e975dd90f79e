import Talos.Soroban.Contract

/-!
# Numbered tickets

A desk issues tickets under the numbers of a counter and closes each of them once.
`Desk.Turn` lists what one call can do at the desk; `Served` is what a run of
such turns has left there: every ticket was issued in the run with the content it
has, and every ticket closed in the run is closed. So numbers increase along a
run (`increasing_of_run`) and no number is closed twice (`closedOnce_of_run`).
-/

namespace Talos.Soroban

structure Ticket (K : Type) where
  content : K
  isOpen : Bool

structure Desk (K : Type) where
  tickets : Map Nat (Ticket K)
  next : Nat

/-- What an accepted call did at the desk. -/
inductive TicketEvent (K : Type) where
  | idle
  | issue (id : Nat) (content : K)
  | close (id : Nat)

variable {K : Type}

inductive Desk.Turn (d : Desk K) : TicketEvent K → Desk K → Prop where
  | idle : Turn d .idle d
  | issue (k : K) : Turn d (.issue d.next k) ⟨d.tickets.set d.next ⟨k, true⟩, d.next + 1⟩
  | close (id : Nat) (k : K) (found : d.tickets id = some ⟨k, true⟩) :
      Turn d (.close id) ⟨d.tickets.set id ⟨k, false⟩, d.next⟩

theorem Desk.Turn.issued {d d' : Desk K} {id : Nat} {k : K} (turn : d.Turn (.issue id k) d') :
    id = d.next := by
  cases turn with
  | issue => rfl

theorem Desk.Turn.wasOpen {d d' : Desk K} {id : Nat} (turn : d.Turn (.close id) d') :
    ∃ k, d.tickets id = some ⟨k, true⟩ := by
  cases turn with
  | close _ k found => exact ⟨k, found⟩

section Runs

variable {R σ C ρ E : Type} {m : Contract R σ C ρ E} {desk : σ → Desk K}
  {event : Entry R σ C ρ → TicketEvent K} {h : List (Entry R σ C ρ)} {s : σ}

/-- Every accepted call is a turn at the desk. -/
def KeepsDesk (m : Contract R σ C ρ E) (desk : σ → Desk K)
    (event : Entry R σ C ρ → TicketEvent K) : Prop :=
  ∀ e s c v s', Reachable m s → m.exec e s c = .ok (v, s') →
    (desk s).Turn (event ⟨s, e, c, v⟩) (desk s')

structure Served (event : Entry R σ C ρ → TicketEvent K) (h : List (Entry R σ C ρ))
    (d : Desk K) : Prop where
  below : ∀ r ∈ h, ∀ id k, event r = .issue id k → id < d.next
  issued : ∀ id t, d.tickets id = some t → ∃ r ∈ h, event r = .issue id t.content
  closed : ∀ r ∈ h, ∀ id, event r = .close id → ∃ k, d.tickets id = some ⟨k, false⟩

variable {d d' : Desk K} {r : Entry R σ C ρ} {ev : TicketEvent K}

theorem Served.lt_next (served : Served event h d) {id : Nat} {t : Ticket K}
    (found : d.tickets id = some t) : id < d.next := by
  obtain ⟨r, mem, issued⟩ := served.issued id t found
  exact served.below r mem id t.content issued

theorem Served.idle (served : Served event h d) (did : event r = .idle) :
    Served event (r :: h) d where
  below := List.forall_mem_cons.mpr
    ⟨fun _ _ issued => (nomatch did.symm.trans issued), served.below⟩
  issued id t found := by
    obtain ⟨q, mem, issued⟩ := served.issued id t found
    exact ⟨q, List.mem_cons_of_mem _ mem, issued⟩
  closed := List.forall_mem_cons.mpr
    ⟨fun _ closed => (nomatch did.symm.trans closed), served.closed⟩

theorem Served.issue (served : Served event h d) {k : K} (did : event r = .issue d.next k) :
    Served event (r :: h) ⟨d.tickets.set d.next ⟨k, true⟩, d.next + 1⟩ where
  below := by
    refine List.forall_mem_cons.mpr ⟨fun id k' issued => ?_, fun q mem id k' issued => ?_⟩
    · cases did.symm.trans issued
      exact Nat.lt_succ_self _
    · exact Nat.lt_succ_of_lt (served.below q mem id k' issued)
  issued id t found := by
    dsimp only at found
    rw [Map.set_apply] at found
    split at found
    · next same =>
      obtain rfl := Option.some.inj found
      exact ⟨r, List.mem_cons_self, same ▸ did⟩
    · obtain ⟨q, mem, issued⟩ := served.issued id t found
      exact ⟨q, List.mem_cons_of_mem _ mem, issued⟩
  closed := by
    refine List.forall_mem_cons.mpr ⟨fun _ closed => (nomatch did.symm.trans closed), ?_⟩
    intro q mem id closed
    obtain ⟨k', found⟩ := served.closed q mem id closed
    have old : id ≠ d.next := Nat.ne_of_lt (served.lt_next found)
    exact ⟨k', (Map.set_of_ne _ _ old).trans found⟩

theorem Served.close (served : Served event h d) {id : Nat} {k : K}
    (found : d.tickets id = some ⟨k, true⟩) (did : event r = .close id) :
    Served event (r :: h) ⟨d.tickets.set id ⟨k, false⟩, d.next⟩ where
  below := List.forall_mem_cons.mpr
    ⟨fun _ _ issued => (nomatch did.symm.trans issued), served.below⟩
  issued id' t found' := by
    dsimp only at found'
    rw [Map.set_apply] at found'
    split at found'
    · next same =>
      obtain rfl := Option.some.inj found'
      obtain ⟨q, mem, issued⟩ := served.issued id _ found
      exact ⟨q, List.mem_cons_of_mem _ mem, same ▸ issued⟩
    · obtain ⟨q, mem, issued⟩ := served.issued id' t found'
      exact ⟨q, List.mem_cons_of_mem _ mem, issued⟩
  closed := by
    refine List.forall_mem_cons.mpr ⟨fun id' closed => ?_, fun q mem id' closed => ?_⟩
    · cases did.symm.trans closed
      exact ⟨k, Map.set_self ..⟩
    · obtain ⟨k', found'⟩ := served.closed q mem id' closed
      by_cases same : id' = id
      · exact ⟨k, same ▸ Map.set_self ..⟩
      · exact ⟨k', (Map.set_of_ne _ _ same).trans found'⟩

theorem Served.step (served : Served event h d) (did : event r = ev) (turn : d.Turn ev d') :
    Served event (r :: h) d' := by
  cases turn with
  | idle => exact served.idle did
  | issue k => exact served.issue did
  | close id k found => exact served.close found did

theorem served_of_run (keeps : KeepsDesk m desk event) (start : (desk m.init).tickets = .empty)
    (run : Run m h s) : Served event h (desk s) := by
  induction run with
  | refl =>
    refine ⟨List.forall_mem_nil _, fun id t found => ?_, List.forall_mem_nil _⟩
    rw [start] at found
    cases found
  | @step h t t' e c v run ok ih => exact ih.step rfl (keeps e t c v t' ⟨h, run⟩ ok)

/-- Later numbers are larger. -/
theorem increasing_of_run (keeps : KeepsDesk m desk event)
    (start : (desk m.init).tickets = .empty) (run : Run m h s) :
    h.Pairwise fun newer older => ∀ id k id' k', event newer = .issue id k →
      event older = .issue id' k' → id' < id := by
  induction run with
  | refl => exact .nil
  | @step h t t' e c v run ok ih =>
    refine List.pairwise_cons.mpr ⟨fun r mem id k id' k' issued old => ?_, ih⟩
    have turn := keeps e t c v t' ⟨h, run⟩ ok
    rw [issued] at turn
    rw [turn.issued]
    exact (served_of_run keeps start run).below r mem id' k' old

/-- A number is closed at most once. -/
theorem closedOnce_of_run (keeps : KeepsDesk m desk event)
    (start : (desk m.init).tickets = .empty) (run : Run m h s) :
    h.Pairwise fun newer older => ∀ id, event newer = .close id → event older ≠ .close id := by
  induction run with
  | refl => exact .nil
  | @step h t t' e c v run ok ih =>
    refine List.pairwise_cons.mpr ⟨fun r mem id closes closed => ?_, ih⟩
    have turn := keeps e t c v t' ⟨h, run⟩ ok
    rw [closes] at turn
    obtain ⟨k, found⟩ := (served_of_run keeps start run).closed r mem id closed
    obtain ⟨k', isOpen⟩ := turn.wasOpen
    cases found.symm.trans isOpen

end Runs

end Talos.Soroban
