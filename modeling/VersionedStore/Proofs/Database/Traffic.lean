/-
  VersionedStore.Proofs.Database.Traffic

  A database in use is traffic on its store.

  Each step of an order leaves the store alone, is one write or removal, or is one
  step of a creation (`Progress.next_does`).  So the steps of a database can be
  followed by steps of `Traffic` (`Usage.Carried`), and what is known of ids and
  versions there holds of databases: every run of a database is carried by a run
  of the traffic.

  An order may create several records, one after the other; each of its creations
  has a number of its own in the traffic.
-/
import Mathlib.Data.Nat.Pairing
import VersionedStore.Proofs.Database.Operations
import VersionedStore.Proofs.Store.Tokens
import VersionedStore.Proofs.Update.Clients

namespace VersionedStore

open Update

/-- A step of a request leaves the store alone or is one write. -/
theorem Update.Request.next_store (req : Request) (rules : Rules) (p : Phase) (w : World) :
    (req.next rules World.surroundings p w).2.store = w.store ∨
      ∃ m : Mutation, (req.next rules World.surroundings p w).2.store = (m.perform w.store).2 := by
  have hwatch : World.watch.Keeps fun other => other.store = w.store :=
    ⟨fun _ _ h => h, fun _ h => h, fun _ _ h => h⟩
  cases p with
  | entering | ready | rechecking => exact .inl (hwatch.poll req.guard w rfl)
  | waiting => exact .inl (hwatch.wait req.guard rules.policy.backoff w rfl)
  | reading | finished => exact .inl rfl
  | writing a => exact .inr ⟨⟨req.id, a.expected, .write w.instant a.candidate⟩, rfl⟩

/-- A step of a writer leaves the store alone or is one write. -/
theorem Simulation.Writer.step_store (rules : Rules) (race : Simulation.Race)
    (v : Simulation.Writer) (w : World) :
    (v.step ⟨rules, World.surroundings⟩ race w).2.store = w.store ∨
      ∃ m : Mutation,
        (v.step ⟨rules, World.surroundings⟩ race w).2.store = (m.perform w.store).2 := by
  obtain ⟨number, stage⟩ := v
  cases stage with
  | reading | ready | done => exact .inl rfl
  | updating request phase => exact request.next_store rules phase w

namespace Database

-- ============================================================================
-- Creations of orders
-- ============================================================================

/-- The creation that an order is busy with, and how many came before it. -/
def Progress.creation? : Progress → Option (Nat × Creation)
  | creating c => some (0, c)
  | seeding made c _ => some (made.length, c)
  | getting _ | listing | executing .. | deleting .. | looking .. | racing .. | ended _ => none

namespace Progress

/-- An order creates the record that is to come next, or creates no more. -/
def Begins (p : Progress) (i : Nat) : Prop :=
  p.creation? = none ∨ ∃ fields, p.creation? = some (i, ⟨fields, .asked⟩)

theorem begins_accept (c : Constraints) (fields : Fields) {begun : Creation → Progress} {i : Nat}
    (hbegun : ∀ creation, (begun creation).creation? = some (i, creation)) :
    (accept c fields begun).Begins i := by
  unfold accept
  split
  · exact .inr ⟨fields, hbegun _⟩
  · exact .inl rfl

theorem begins_seed (c : Constraints) (made : List Record) (left : List Fields) :
    (seed c made left).Begins made.length := by
  cases left with
  | nil => exact .inl rfl
  | cons fields left =>
    have hbegun : ∀ creation, (Progress.seeding made creation left).creation?
        = some (made.length, creation) := fun _ => rfl
    exact begins_accept c fields hbegun

theorem begins_begin (c : Constraints) (order : Order) : (order.begin c).Begins 0 := by
  cases order with
  | create fields =>
    have hbegun : ∀ creation, (Progress.creating creation).creation? = some (0, creation) :=
      fun _ => rfl
    exact begins_accept c fields hbegun
  | seedCatalog => exact begins_seed c [] Catalog.samples
  | get | list | execute | delete | simulate => exact .inl rfl

theorem creation?_answered {α : Type} (reply : α → Reply) (answer : Except StoreError α) :
    (answered reply answer).creation? = none := by
  cases answer <;> rfl

theorem creation?_resulted {α : Type} (reply : α → Reply) (result : Except UpdateError α) :
    (resulted reply result).creation? = none := by
  cases result <;> rfl

theorem creation?_gather (race : Simulation.Race) (writers : List Simulation.Writer) :
    (gather race writers).creation? = none := by
  unfold gather
  split
  · rfl
  · split <;> rfl

theorem creation?_looked (id : RecordId) (n : Nat)
    (answer : Except StoreError (Option Record)) : (looked id n answer).creation? = none := by
  match answer with
  | .error e => rfl
  | .ok none => rfl
  | .ok (some base) =>
    rw [looked]
    cases Product.ofRecord base with
    | error reason => rfl
    | ok product => exact creation?_gather ..

-- ============================================================================
-- What a step of an order does
-- ============================================================================

/-- What one step of an order does to the store and to the creations. -/
inductive Does (w : World) : Progress → Progress → Store → Prop where
  | rests {p p' : Progress} (hp : p.creation? = none) (hp' : p'.creation? = none) :
      Does w p p' w.store
  | mutates {p p' : Progress} (m : Mutation) (hp : p.creation? = none)
      (hp' : p'.creation? = none) : Does w p p' (m.perform w.store).2
  /-- A creation takes a step; if it is over, another one may be begun. -/
  | creates {p p' : Progress} {i : Nat} {c : Creation} (hp : p.creation? = some (i, c))
      (hp' : p'.creation? = some (i, (c.next w.instant w.store).1) ∨ p'.Begins (i + 1)) :
      Does w p p' (c.next w.instant w.store).2

/-- A step that leaves the store alone or is one write. -/
theorem does_of_store {w : World} {p p' : Progress} {s : Store} (hp : p.creation? = none)
    (hp' : p'.creation? = none)
    (hs : s = w.store ∨ ∃ m : Mutation, s = (m.perform w.store).2) : Does w p p' s := by
  rcases hs with rfl | ⟨m, rfl⟩
  · exact .rests hp hp'
  · exact .mutates m hp hp'

theorem does_proceed {onward : Creation → Progress} {finish : Except StoreError Record → Progress}
    {c : Creation} {i : Nat} (w : World)
    (honward : ∀ c, (onward c).creation? = some (i, c))
    (hfinish : ∀ answer, (finish answer).Begins (i + 1)) :
    Does w (onward c) (proceed onward finish c w).1 (proceed onward finish c w).2.store := by
  have hproceed : proceed onward finish c w = _ := proceed_eq Prod.mk.eta.symm
  refine .creates (honward c) ?_
  rw [hproceed]
  cases (c.next w.instant w.store).1.stage.answer? with
  | none => exact .inl (honward _)
  | some answer => exact .inr (hfinish answer)

theorem next_does (rules : Rules) (pick : Nat) (p : Progress) (w : World) :
    Does w p (p.next rules pick w).1 (p.next rules pick w).2.store := by
  cases p with
  | creating c =>
    have honward : ∀ c, (creating c).creation? = some (0, c) := fun _ => rfl
    exact does_proceed w honward fun answer => .inl (creation?_answered .record answer)
  | getting | listing => exact .rests rfl rfl
  | executing request phase =>
    refine does_of_store rfl ?_ (request.next_store rules phase w)
    rw [next]
    dsimp only [Functor.map, StateT.map, bind, pure]
    obtain ⟨phase', w'⟩ := request.next rules World.surroundings phase w
    dsimp only
    cases phase'.result? with
    | none => rfl
    | some result => exact creation?_resulted ..
  | deleting id expected =>
    refine does_of_store rfl (creation?_resulted ..) (.inr ⟨⟨id, expected, .delete⟩, ?_⟩)
    have hremove := remove_eq World.surroundings id expected w
    change (remove World.surroundings id expected w).2.store = _
    rw [hremove]
    rfl
  | seeding made c left =>
    have honward : ∀ c, (seeding made c left).creation? = some (made.length, c) := fun _ => rfl
    refine does_proceed w honward fun answer => ?_
    cases answer with
    | error e => exact .inl rfl
    | ok r =>
      have hseed := begins_seed rules.constraints (made ++ [r]) left
      rwa [List.length_append, List.length_singleton] at hseed
  | looking id n => exact .rests rfl (creation?_looked ..)
  | racing race writers =>
    rcases @next_racing_cases rules race writers pick w with hnext | ⟨v, -, -, hnext⟩
    · rw [hnext]
      exact .rests rfl rfl
    · rw [hnext]
      exact does_of_store rfl (creation?_gather ..) (v.step_store rules race w)
  | ended outcome => exact .rests rfl rfl

end Progress

-- ============================================================================
-- Databases as traffic
-- ============================================================================

namespace Usage

/-- The number that the creations of an order have in the traffic. -/
def creationNumber (k i : Nat) : Nat :=
  Nat.pair k i

theorem creationNumber_ne {k j : Nat} (h : j ≠ k) (i l : Nat) :
    creationNumber j i ≠ creationNumber k l := by
  intro heq
  exact h (Nat.pair_eq_pair.1 heq).1

theorem creationNumber_ne_of_ne {i l : Nat} (h : i ≠ l) (k : Nat) :
    creationNumber k i ≠ creationNumber k l := by
  intro heq
  exact h (Nat.pair_eq_pair.1 heq).2

/-- Traffic that has done to the store what a database has done to it. -/
structure Carried (u : Usage) (t : Traffic) : Prop where
  store : t.store = u.world.store
  /-- The creations of orders that were not taken up were not begun. -/
  vacant : ∀ {k : Nat}, u.orders k = none → ∀ i, t.creations (creationNumber k i) = none
  /-- The creation that an order is busy with is under way; later ones were not begun. -/
  busy : ∀ {k : Nat} {p : Progress} {i : Nat} {c : Creation}, u.orders k = some p →
    p.creation? = some (i, c) →
      t.creations (creationNumber k i) = some c ∧
        ∀ l, i < l → t.creations (creationNumber k l) = none

theorem carried_start (clock : Time) : (start clock).Carried .start where
  store := rfl
  vacant _ _ := rfl
  busy hk := nomatch hk

variable {u : Usage} {t : Traffic} {k : Nat}

/-- One order goes on, and the creations of the others stay as they are. -/
theorem Carried.update (h : u.Carried t) {t' : Traffic} {w : World} {p : Progress}
    (hstore : t'.store = w.store)
    (hothers : ∀ {j : Nat}, j ≠ k → ∀ i,
      t'.creations (creationNumber j i) = t.creations (creationNumber j i))
    (hbusy : ∀ {i : Nat} {c : Creation}, p.creation? = some (i, c) →
      t'.creations (creationNumber k i) = some c ∧
        ∀ l, i < l → t'.creations (creationNumber k l) = none) :
    Carried ⟨w, Function.update u.orders k (some p)⟩ t' where
  store := hstore
  vacant {j} hj i := by
    by_cases hjk : j = k
    · subst hjk
      simp at hj
    · rw [hothers hjk]
      refine h.vacant ?_ i
      simpa [hjk] using hj
  busy {j q i c} hj hc := by
    by_cases hjk : j = k
    · subst hjk
      obtain rfl : p = q := by simpa using hj
      exact hbusy hc
    · have hq : u.orders j = some q := by simpa [hjk] using hj
      obtain ⟨hunder, hlater⟩ := h.busy hq hc
      refine ⟨(hothers hjk i).trans hunder, fun l hl => (hothers hjk l).trans (hlater l hl)⟩

/-- An order that is busy with no creation goes on. -/
theorem Carried.update_of_none (h : u.Carried t) {t' : Traffic} {w : World} {p : Progress}
    (hstore : t'.store = w.store) (hcreations : t'.creations = t.creations)
    (hp : p.creation? = none) : Carried ⟨w, Function.update u.orders k (some p)⟩ t' := by
  refine h.update hstore (fun _ _ => by rw [hcreations]) (fun hc => ?_)
  rw [hp] at hc
  contradiction

/-- A creation is begun by an order that has begun none of this number. -/
theorem Carried.begin (h : u.Carried t) {t' : Traffic} {w : World} {p : Progress} {i : Nat}
    (hstore : t'.store = w.store)
    (hothers : ∀ {j : Nat}, j ≠ k → ∀ l,
      t'.creations (creationNumber j l) = t.creations (creationNumber j l))
    (hvacant : ∀ l, i ≤ l → t'.creations (creationNumber k l) = none) (hp : p.Begins i) :
    ∃ actions, Carried ⟨w, Function.update u.orders k (some p)⟩ (t'.after actions) := by
  rcases hp with hnone | ⟨fields, hsome⟩
  · refine ⟨[], h.update hstore hothers (fun hc => ?_)⟩
    rw [hnone] at hc
    contradiction
  · have hask : t'.after [.ask (creationNumber k i) fields]
        = { t' with creations :=
              Function.update t'.creations (creationNumber k i) (some ⟨fields, .asked⟩) } := by
      simp [Traffic.after, Traffic.step, hvacant i (Nat.le_refl i)]
    refine ⟨[.ask (creationNumber k i) fields], ?_⟩
    rw [hask]
    refine h.update hstore (fun hj l => ?_) (fun hc => ?_)
    · rw [← hothers hj l]
      exact Function.update_of_ne (creationNumber_ne hj l i) _ _
    · rw [hsome] at hc
      obtain ⟨rfl, rfl⟩ := Prod.mk.inj (Option.some.inj hc)
      refine ⟨Function.update_self .., fun l hl => ?_⟩
      rw [← hvacant l (Nat.le_of_lt hl)]
      exact Function.update_of_ne (creationNumber_ne_of_ne (Nat.ne_of_gt hl) k) _ _

/-- A step of an order is followed by steps of the traffic. -/
theorem Carried.work (h : u.Carried t) {p p' : Progress} {w : World} (hk : u.orders k = some p)
    (hdoes : p.Does u.world p' w.store) :
    ∃ actions, Carried ⟨w, Function.update u.orders k (some p')⟩ (t.after actions) := by
  generalize hs : w.store = s at hdoes
  cases hdoes with
  | rests hp hp' => exact ⟨[], h.update_of_none (h.store.trans hs.symm) rfl hp'⟩
  | mutates m hp hp' =>
    refine ⟨[.mutate k m], h.update_of_none ?_ rfl hp'⟩
    rw [hs, ← h.store]
    rfl
  | @creates i c hp hp' =>
    obtain ⟨hunder, hlater⟩ := h.busy hk hp
    have hadvance : t.after [.advance (creationNumber k i) u.world.instant] = _ :=
      Traffic.step_advance hunder u.world.instant
    have hothers : ∀ {j l : Nat}, creationNumber j l ≠ creationNumber k i →
        (t.after [.advance (creationNumber k i) u.world.instant]).creations (creationNumber j l)
          = t.creations (creationNumber j l) := by
      intro j l hne
      rw [hadvance]
      exact Function.update_of_ne hne _ _
    have hself : (t.after [.advance (creationNumber k i) u.world.instant]).creations
        (creationNumber k i) = some (c.next u.world.instant u.world.store).1 := by
      rw [hadvance, ← h.store]
      exact Function.update_self ..
    have hstore : (t.after [.advance (creationNumber k i) u.world.instant]).store = w.store := by
      rw [hadvance, hs, ← h.store]
    have hvacant : ∀ l, i < l →
        (t.after [.advance (creationNumber k i) u.world.instant]).creations (creationNumber k l)
          = none := by
      intro l hl
      rw [hothers (creationNumber_ne_of_ne (Nat.ne_of_gt hl) k)]
      exact hlater l hl
    rcases hp' with hsome | hbegins
    · refine ⟨[.advance (creationNumber k i) u.world.instant], h.update hstore
        (fun hj l => hothers (creationNumber_ne hj l i)) (fun hc => ?_)⟩
      rw [hsome] at hc
      obtain ⟨rfl, rfl⟩ := Prod.mk.inj (Option.some.inj hc)
      exact ⟨hself, hvacant⟩
    · obtain ⟨actions, hcarried⟩ := h.begin hstore
        (fun hj l => hothers (creationNumber_ne hj l i)) hvacant hbegins
      exact ⟨.advance (creationNumber k i) u.world.instant :: actions, hcarried⟩

/-- What happens to a database is followed by steps of the traffic. -/
theorem Carried.step (h : u.Carried t) (rules : Rules) (e : Event) :
    ∃ actions, (u.step rules e).Carried (t.after actions) := by
  cases e with
  | order k order =>
    cases hk : u.orders k with
    | some p =>
      rw [step_order_of_some hk]
      exact ⟨[], h⟩
    | none =>
      rw [step_order_of_none hk]
      exact h.begin h.store (fun _ _ => rfl) (fun l _ => h.vacant hk l)
        (Progress.begins_begin rules.constraints order)
  | work k pick =>
    cases hk : u.orders k with
    | none =>
      rw [step_work_of_none hk]
      exact ⟨[], h⟩
    | some p =>
      rw [step_work_of_some hk]
      exact h.work hk (p.next_does rules pick u.world)
  | drift clock triggered => exact ⟨[], h.store, h.vacant, h.busy⟩

/-- However the orders of a database interleave, the store is one that a run of the traffic
    comes to. -/
theorem carried_run (rules : Rules) (clock : Time) (events : List Event) :
    ∃ actions, (run rules clock events).Carried (.run actions) := by
  have hsteps : ∀ (events : List Event) (u : Usage) (t : Traffic), u.Carried t →
      ∃ actions, (events.foldl (step rules) u).Carried (t.after actions) := by
    intro events
    induction events with
    | nil => exact fun u t h => ⟨[], h⟩
    | cons e rest ih =>
      intro u t h
      obtain ⟨first, hfirst⟩ := h.step rules e
      obtain ⟨later, hlater⟩ := ih _ _ hfirst
      refine ⟨first ++ later, ?_⟩
      rwa [Traffic.after, List.foldl_append]
  exact hsteps events _ _ (carried_start clock)

end Usage

end Database

end VersionedStore
