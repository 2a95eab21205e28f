import BoardRules.Proofs.Dispatch.Bystanders
import BoardRules.Proofs.Dispatch.Grouping
import BoardRules.Proofs.Store.Region

/-!
# Independent events

An automation that only moves cards has to do with the boards of its entity and with no others. So two
events whose entities have their cards on different boards can be dispatched in either order: each
dispatch ends as it would alone, and all columns end with the same contents.
-/
namespace BoardRules

open Store (SameOn Parallel)

variable {on : BoardId → Prop} {s t : Store}

/-- Two runs of the same work, from stores that are the same on some boards. -/
structure Alongside {α : Type} (on : BoardId → Prop) (s t : Store) (one other : α × Store) :
    Prop where
  answer : other.1 = one.1
  parallel : Parallel on s t one.2 other.2

namespace Alongside

variable {α β : Type}

theorem refl (same : SameOn on s t) (answer : α) : Alongside on s t (answer, s) (answer, t) :=
  ⟨rfl, .refl same⟩

theorem bind {d : Dialogue α} {next : α → Dialogue β}
    (first : Alongside on s t (d.run Store.service s) (d.run Store.service t))
    (rest : let reached := d.run Store.service s
      let reached' := d.run Store.service t
      Alongside on reached.2 reached'.2 ((next reached.1).run Store.service reached.2)
        ((next reached.1).run Store.service reached'.2)) :
    Alongside on s t ((d >>= next).run Store.service s) ((d >>= next).run Store.service t) := by
  rw [Dialogue.run_bind, Dialogue.run_bind, first.answer]
  exact ⟨rest.answer, first.parallel.trans rest.parallel⟩

theorem map {d : Dialogue α} (f : α → β)
    (first : Alongside on s t (d.run Store.service s) (d.run Store.service t)) :
    Alongside on s t ((d >>= fun value => pure (f value)).run Store.service s)
      ((d >>= fun value => pure (f value)).run Store.service t) :=
  first.bind (.refl first.parallel.same _)

end Alongside

/-! ## Steps -/

namespace Step

/-- A step that moves a card of these boards into one of their columns. -/
def Within (on : BoardId → Prop) (s : Store) : Step → Prop
  | close _ => False
  | create _ _ => False
  | raise card column => s.Inside on card ∧ s.Covers on column
  | lower card column _ => s.Inside on card ∧ s.Covers on column

theorem Within.call_eq {step : Step} (within : step.Within on s) :
    ∃ card column after, s.Inside on card ∧ s.Covers on column ∧
      step.call = .moveCard card column after := by
  cases step with
  | close issue => exact within.elim
  | create column entity => exact within.elim
  | raise card column => exact ⟨card, column, none, within.1, within.2, rfl⟩
  | lower card column anchor => exact ⟨card, column, some anchor, within.1, within.2, rfl⟩

theorem Within.stays {step : Step} (within : step.Within on s)
    (others : SameOn (fun board => ¬ on board) s t) : step.Within on t := by
  cases step with
  | close issue => exact within.elim
  | create column entity => exact within.elim
  | raise card column => exact ⟨others.stays within.1, others.covers within.2⟩
  | lower card column anchor => exact ⟨others.stays within.1, others.covers within.2⟩

theorem alongside_call {step : Step} (same : SameOn on s t) (within : step.Within on s) :
    Alongside on s t (Store.service step.call s) (Store.service step.call t) := by
  obtain ⟨card, column, after, inside, covered, call⟩ := within.call_eq
  rw [call]
  obtain ⟨answer, parallel⟩ := same.moveCard inside covered after
  exact ⟨answer, parallel⟩

theorem alongside_forM (steps : List Step) (actions : List Action) (same : SameOn on s t)
    (within : ∀ step ∈ steps, step.Within on s) :
    Alongside on s t (RuleRun.perform Store.service (steps.forM take) actions s)
      (RuleRun.perform Store.service (steps.forM take) actions t) := by
  induction steps generalizing actions s t with
  | nil => exact .refl same _
  | cons step rest others =>
    obtain ⟨answer, parallel⟩ := alongside_call same (within step List.mem_cons_self)
    rw [perform_cons, perform_cons]
    rcases result : Store.service step.call s with ⟨error | value, s'⟩ <;>
      rcases result' : Store.service step.call t with ⟨error' | value', t'⟩ <;>
      rw [result, result'] at answer parallel <;> cases answer
    · exact ⟨rfl, parallel⟩
    · obtain ⟨following, remaining⟩ := others (actions ++ [step.action value]) parallel.same
        fun next member => (within next (List.mem_cons_of_mem _ member)).stays parallel.confined
      exact ⟨following, parallel.trans remaining⟩

end Step

/-! ## Automations that only move cards -/

theorem Store.SameOn.fires_eq (same : SameOn on s t) : t.fires = s.fires := by
  unfold Store.fires
  rw [same.reviewsOf_eq]

/-- The automation neither creates cards nor has a side effect. -/
def Automation.Plain (automation : Automation) : Prop :=
  automation.createsCard = false ∧ automation.sideEffect = none

namespace Automation

variable {automation : Automation} {policy : RetryPolicy} {event : Event} {url : EntityUrl}

/-- The steps of an automation that has read the cards of the entity. -/
def movesFor (automation : Automation) (event : Event) (s : Store) (found : EntityMemberships) :
    List Step :=
  ((automation.transition found).filter fun round =>
    s.fires automation.matcher event round.rule.declaration.arguments).flatMap (·.steps)

theorem perform_work_plain (plain : automation.Plain) (reads : s.failingReads = 0) :
    RuleRun.perform Store.service (automation.work policy event (.entity url)) [] s =
      match Store.cardMemberships url s with
      | .error error => ((.error (.tracking error), []), s)
      | .ok found =>
        RuleRun.perform Store.service ((automation.movesFor event s found).forM Step.take) [] s := by
  have answered : (Store.service (.cardMemberships url) s).1 = Store.cardMemberships url s :=
    congrArg Prod.fst (Store.read_calm reads _)
  rw [automation.perform_work_calm policy event reads
    (automation.agenda_of_moves (by simp [plain.1]) plain.2 url)]
  dsimp only
  rw [answered]
  cases Store.cardMemberships url s with
  | error error => rfl
  | ok found =>
    dsimp only
    rw [automation.due_rounds, Round.forM_duties]
    rfl

/-- All steps stay on the boards of the entity. -/
theorem within_movesFor (wellFormed : s.WellFormed) (home : s.Home on (.entity url))
    {found : EntityMemberships} (answer : Store.cardMemberships url s = .ok found) :
    ∀ step ∈ automation.movesFor event s found, step.Within on s := by
  intro step member
  obtain ⟨round, fired, taken⟩ := List.mem_flatMap.mp member
  obtain ⟨membership, candidate, steps⟩ :=
    automation.mem_transition wellFormed answer (List.mem_of_mem_filter fired)
  obtain ⟨board, id, place, host⟩ := candidate.together
  have here : on board := home board id membership.card place candidate.own
  have covered : s.Covers on round.rule.column.id := ⟨board, here, host⟩
  rw [steps] at taken
  rcases List.mem_cons.mp taken with rfl | lowering
  · exact ⟨⟨board, id, here, place⟩, covered⟩
  · obtain ⟨anchor, _, rfl⟩ := List.mem_map.mp lowering
    have own := wellFormed.mem_places.mpr ⟨host, candidate.shown.placed⟩
    exact ⟨⟨board, round.rule.column.id, here, own⟩, covered⟩

theorem alongside_outcome (plain : automation.Plain) (same : SameOn on s t)
    (reads : s.failingReads = 0) (home : s.Home on (.entity url)) :
    Alongside on s t ((automation.outcome policy event (.entity url)).run Store.service s)
      ((automation.outcome policy event (.entity url)).run Store.service t) := by
  have works : Alongside on s t
      (RuleRun.perform Store.service (automation.work policy event (.entity url)) [] s)
      (RuleRun.perform Store.service (automation.work policy event (.entity url)) [] t) := by
    rw [perform_work_plain plain reads, perform_work_plain plain (same.failingReads.trans reads),
      same.cardMemberships_eq home]
    cases answer : Store.cardMemberships url s with
    | error error => exact .refl same _
    | ok found =>
      have steps : automation.movesFor event t found = automation.movesFor event s found := by
        unfold movesFor
        rw [same.fires_eq]
      dsimp only
      rw [steps]
      exact Step.alongside_forM _ [] same (within_movesFor same.wellFormed home answer)
  exact works.map _

end Automation

/-! ## Dispatches -/

namespace Dispatcher

theorem alongside_outcomes {policy : RetryPolicy} {event : Event} {url : EntityUrl}
    (automations : List Automation) (plain : ∀ automation ∈ automations, automation.Plain)
    (same : SameOn on s t) (reads : s.failingReads = 0) (home : s.Home on (.entity url)) :
    Alongside on s t ((outcomes policy event (.entity url) automations).run Store.service s)
      ((outcomes policy event (.entity url) automations).run Store.service t) := by
  induction automations generalizing s t with
  | nil => exact .refl same _
  | cons automation rest others =>
    have first : Alongside on s t
        ((automation.outcome policy event (.entity url)).run Store.service s)
        ((automation.outcome policy event (.entity url)).run Store.service t) :=
      Automation.alongside_outcome (plain automation List.mem_cons_self) same reads home
    have confined := first.parallel.confined
    have remaining := others (fun other member => plain other (List.mem_cons_of_mem _ member))
      first.parallel.same (confined.failingReads.trans reads)
      (confined.home (fun _ => confined.stays) home)
    exact first.bind (remaining.map _)

/-- Nothing but the entities decides what an event is about. -/
theorem resolve_alike (dispatcher : Dispatcher) (event : Event) (same : SameOn on s t)
    (reads : s.failingReads = 0) : ((dispatcher.resolve event).run Store.service t).1 =
      ((dispatcher.resolve event).run Store.service s).1 := by
  unfold resolve
  split
  · rfl
  · rfl
  · split
    · rfl
    · rename_i url _
      have described {s : Store} (reads : s.failingReads = 0) :
          (Dialogue.read dispatcher.policy (.pullRequestBody url)).run Store.service s =
            (Store.pullRequestBody url s, s) :=
        (Store.run_read_calm dispatcher.policy rfl reads).trans (Store.read_calm reads _)
      have body : Store.pullRequestBody url t = Store.pullRequestBody url s := by
        unfold Store.pullRequestBody
        rw [same.entity_eq]
      rw [Dialogue.run_bind, Dialogue.run_bind, described reads,
        described (same.failingReads.trans reads), body]
      rfl
  · rfl

end Dispatcher

/-- The event is not about a card that has been moved. -/
def Event.AboutEntity (event : Event) : Prop := ∀ card, event.subject ≠ .projectCard card

theorem Dispatcher.entity_of_resolve {dispatcher : Dispatcher} {event : Event}
    (about : event.AboutEntity) {target : Target}
    (resolved : ((dispatcher.resolve event).run Store.service s).1 = .ok target) :
    ∃ url, target = .entity url := by
  rcases target_of_resolve resolved with ⟨card, subject, _⟩ | found
  · exact absurd subject (about card)
  · exact found

/-- What an event is about by the entities of the store, if that can be found out. -/
def Store.target? (s : Store) (policy : RetryPolicy) (event : Event) : Option Target :=
  (((⟨event.trigger, [], policy⟩ : Dispatcher).resolve event).run Store.service s).1.toOption

/-- The boards on which an entity has cards. -/
def Store.homes (s : Store) (target : Target) : List BoardId :=
  (s.places.filter fun place => s.owns target place.2.2).map (·.1)

/-- The events are about entities that have no cards on the same board. -/
def Store.Apart (s : Store) (policy : RetryPolicy) (event event' : Event) : Prop :=
  ∀ target ∈ s.target? policy event, ∀ target' ∈ s.target? policy event',
    (s.homes target).Disjoint (s.homes target')

theorem Store.home_of_homes {target : Target} (all : ∀ board ∈ s.homes target, on board) :
    s.Home on target := by
  intro board id card place own
  exact all board (List.mem_map.mpr ⟨(board, id, card), List.mem_filter.mpr ⟨place, own⟩, rfl⟩)

namespace Router

theorem alongside_route {policy : RetryPolicy} {catalog : Catalog} {event : Event}
    (about : event.AboutEntity)
    (plain : ∀ automation ∈ catalog.listeners event.trigger, automation.Plain)
    (same : SameOn on s t) (reads : s.failingReads = 0)
    (home : ∀ target ∈ s.target? policy event, s.Home on target) :
    Alongside on s t (((ofCatalog policy catalog).route event).run Store.service s)
      (((ofCatalog policy catalog).route event).run Store.service t) := by
  unfold route
  rw [dispatcher?_ofCatalog]
  by_cases unheard : catalog.listeners event.trigger = []
  · rw [if_pos unheard]
    exact .refl same _
  · rw [if_neg unheard]
    refine Alongside.map _ ?_
    have alike := Dispatcher.resolve_alike
      ⟨event.trigger, catalog.listeners event.trigger, policy⟩ event same reads
    rw [Dispatcher.run_dispatch_calm rfl reads,
      Dispatcher.run_dispatch_calm rfl (same.failingReads.trans reads), alike]
    cases resolved : (((⟨event.trigger, catalog.listeners event.trigger,
      policy⟩ : Dispatcher).resolve event).run Store.service s).1 with
    | error error => exact .refl same _
    | ok target =>
      obtain ⟨url, rfl⟩ := Dispatcher.entity_of_resolve about resolved
      have known : s.target? policy event = some (.entity url) :=
        congrArg Except.toOption resolved
      let work := Dispatcher.outcomes policy event (.entity url) (catalog.listeners event.trigger)
      obtain ⟨answer, parallel⟩ : Alongside on s t (work.run Store.service s)
          (work.run Store.service t) :=
        Dispatcher.alongside_outcomes _ plain same reads (home _ known)
      have report := congrArg (fun done : List Outcome =>
        (.ok ⟨event.trigger, done⟩ : Except DispatchError Report)) answer
      exact ⟨report, parallel⟩

/-- Events of entities on different boards can be dispatched in either order, if the automations for
them only move cards. Either way all columns end with the same contents and both dispatches with the
results that they have alone. The stores differ in the order of their journals only. -/
theorem independent_events_commute (policy : RetryPolicy) (catalog : Catalog)
    (event event' : Event) (s : Store) (reachable : s.Reachable) (reads : s.failingReads = 0)
    (about : event.AboutEntity) (about' : event'.AboutEntity)
    (plain : ∀ automation ∈ catalog.listeners event.trigger, automation.Plain)
    (plain' : ∀ automation ∈ catalog.listeners event'.trigger, automation.Plain)
    (apart : s.Apart policy event event') :
    let router := ofCatalog policy catalog
    let alone := (router.route event).run Store.service s
    let alone' := (router.route event').run Store.service s
    let after := (router.route event').run Store.service alone.2
    let after' := (router.route event).run Store.service alone'.2
    (∀ id, after.2.cardsIn id = after'.2.cardsIn id) ∧
      after.1 = alone'.1 ∧ after'.1 = alone.1 ∧
      after'.2 = { after.2 with journal := after'.2.journal } ∧
      ∃ moves moves', after.2.journal = s.journal ++ moves ++ moves' ∧
        after'.2.journal = s.journal ++ moves' ++ moves := by
  intro router alone alone' after after'
  have wellFormed := reachable.wellFormed
  let on : BoardId → Prop := fun board => ∃ target ∈ s.target? policy event, board ∈ s.homes target
  have home : ∀ target ∈ s.target? policy event, s.Home on target := fun target known =>
    Store.home_of_homes fun board member => ⟨target, known, member⟩
  have home' : ∀ target ∈ s.target? policy event', s.Home (fun board => ¬ on board) target := by
    intro target' known'
    refine Store.home_of_homes fun board member inside => ?_
    obtain ⟨target, known, member'⟩ := inside
    exact apart target known target' known' member' member
  -- Alone, each event leaves the boards of the other as they are.
  have first : Alongside on s s alone alone :=
    alongside_route about plain (.refl wellFormed _) reads home
  have second : Alongside (fun board => ¬ on board) s s alone' alone' :=
    alongside_route about' plain' (.refl wellFormed _) reads home'
  have untouched : SameOn on s alone'.2 := second.parallel.confined.mono fun _ => not_not_intro
  -- So the one that comes second finds the boards that it would find if it came first.
  have late : Alongside (fun board => ¬ on board) s alone.2 alone' after :=
    alongside_route about' plain' first.parallel.confined reads home'
  have late' : Alongside on s alone'.2 alone after' :=
    alongside_route about plain untouched reads home
  have same : SameOn on after.2 after'.2 :=
    (late.parallel.confined'.mono fun _ => not_not_intro).symm.trans late'.parallel.same
  have others : SameOn (fun board => ¬ on board) after.2 after'.2 :=
    late.parallel.same.symm.trans late'.parallel.confined'
  obtain ⟨moves', noted', added'⟩ := late.parallel.noted
  obtain ⟨moves, noted, added⟩ := late'.parallel.noted
  refine ⟨fun id => ?_, late.answer, late'.answer, same.eq_of_others others, moves, moves', ?_, ?_⟩
  · unfold Store.cardsIn Store.column? Store.columns
    rw [same.boards_eq others]
  · rw [added', noted]
  · rw [added, noted']

/-- Two boards, each with a rule and the card of another issue. -/
def neighbours : Store :=
  [.addBoard (.owner "octo") "Plan", .addColumn ⟨"board-1"⟩ "Triage",
    .addBoard (.owner "octo") "Docs", .addColumn ⟨"board-3"⟩ "Inbox", .addColumn ⟨"board-3"⟩ "Done",
    .addEntity ⟨.https, "github.com", "octo", "demo", .issue, 7⟩,
    .addEntity ⟨.https, "github.com", "octo", "demo", .issue, 8⟩,
    .appendCard ⟨"column-2"⟩ (.note "- `milestoned_issue`"),
    .appendCard ⟨"column-2"⟩ (.note "nothing"),
    .appendCard ⟨"column-2"⟩ (.entity ⟨"entity-6"⟩),
    .appendCard ⟨"column-4"⟩ (.entity ⟨"entity-7"⟩),
    .appendCard ⟨"column-5"⟩ (.note "- `reopened_issue`")].foldl Store.perform .empty

/-- One issue gets a milestone, the other is reopened: whichever comes first, the boards end alike. -/
theorem independent_events_commute_neighbours :
    let router := ofCatalog .default .builtin
    let milestone : Event := ⟨.issueMilestoned, ⟨some "milestoned",
      some ⟨"https://github.com/octo/demo/issues/7", 7, []⟩, none, none, none, none, none⟩⟩
    let reopening : Event := ⟨.issueReopened, ⟨some "reopened",
      some ⟨"https://github.com/octo/demo/issues/8", 8, []⟩, none, none, none, none, none⟩⟩
    let after := (router.route reopening).run Store.service
      ((router.route milestone).run Store.service neighbours).2
    let after' := (router.route milestone).run Store.service
      ((router.route reopening).run Store.service neighbours).2
    after.2.cardsIn ⟨"column-2"⟩ = [⟨"card-10"⟩, ⟨"card-8"⟩, ⟨"card-9"⟩] ∧
      after.2.cardsIn ⟨"column-5"⟩ = [⟨"card-11"⟩, ⟨"card-12"⟩] ∧
      ∀ id, after.2.cardsIn id = after'.2.cardsIn id := by
  intro router milestone reopening after after'
  have about : milestone.AboutEntity := by
    intro card same
    cases same
  have about' : reopening.AboutEntity := by
    intro card same
    cases same
  have plain : ∀ trigger, trigger = .issueMilestoned ∨ trigger = .issueReopened →
      ∀ automation ∈ Catalog.builtin.listeners trigger, automation.Plain := by
    rintro trigger (rfl | rfl) <;> unfold Automation.Plain <;> decide +kernel
  have apart : neighbours.Apart .default milestone reopening := by
    have known : neighbours.target? .default milestone =
        some (.entity ⟨.https, "github.com", "octo", "demo", .issue, 7⟩) := by decide +kernel
    have known' : neighbours.target? .default reopening =
        some (.entity ⟨.https, "github.com", "octo", "demo", .issue, 8⟩) := by decide +kernel
    have homes : neighbours.homes (.entity ⟨.https, "github.com", "octo", "demo", .issue, 7⟩) =
        [⟨"board-1"⟩] := by decide +kernel
    have homes' : neighbours.homes (.entity ⟨.https, "github.com", "octo", "demo", .issue, 8⟩) =
        [⟨"board-3"⟩] := by decide +kernel
    intro target found target' found'
    rw [known] at found
    rw [known'] at found'
    cases found
    cases found'
    rw [homes, homes']
    simp
  obtain ⟨alike, _⟩ := independent_events_commute .default .builtin milestone reopening neighbours
    (Store.Reachable.foldl _ _ .empty) (by decide +kernel) about about' (plain _ (.inl rfl))
    (plain _ (.inr rfl)) apart
  exact ⟨by decide +kernel, by decide +kernel, alike⟩

end Router

end BoardRules
