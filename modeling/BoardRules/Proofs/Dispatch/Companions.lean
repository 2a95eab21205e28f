import BoardRules.Proofs.Dispatch.Independence
import BoardRules.Proofs.Dispatch.Lowering
import BoardRules.Proofs.Store.Received

/-!
# Companion cards

A column gets one card with a companion note for every rule that fires and leads to that column with
that note. Whether the column shows the note already is looked up in the boards as they were read
before the first of these cards was made, so rules that agree in their arguments add the note once
each.
-/
namespace BoardRules

open Store (Frame Unwritten)

variable {s t : Store} {target : Target} {due : List (ColumnId × String)}

/-! ## Automations that add no notes -/

theorem Round.triple_unwritten (round : Round) :
    RuleRun.Triple Store.service (fun _ => Unwritten s) round.duty.work (fun _ _ => Unwritten s)
      fun _ _ => Unwritten s := by
  refine RuleRun.triple_forM fun step _ => Step.triple_take_kept fun t before => before.service ?_
  intro column text
  cases step <;> simp [Step.call]

namespace Automation

variable (automation : Automation) (policy : RetryPolicy) (event : Event)

/-- Without side effects in the place of moves, all duties are rounds. -/
theorem rounds_agenda (planned : automation.Planned target) (s : Store) :
    (automation.agenda target).Each s fun duty => ∃ round : Round, duty = round.duty := by
  cases target with
  | movedCard card =>
    intro context _ duty member
    obtain ⟨round, _, rfl⟩ := List.mem_map.mp member
    exact ⟨round, rfl⟩
  | entity url =>
    by_cases creates : automation.createsCard = true
    · rw [automation.agenda_of_creates creates]
      intro found _ duty member
      obtain ⟨round, _, rfl⟩ := List.mem_map.mp member
      exact ⟨round, rfl⟩
    · rw [automation.agenda_of_moves creates (planned.resolve_left creates)]
      intro found _ duty member
      obtain ⟨round, _, rfl⟩ := List.mem_map.mp member
      exact ⟨round, rfl⟩

theorem unwritten_outcome (planned : automation.Planned target) (s : Store) :
    Unwritten s ((automation.outcome policy event target).run Store.service s).2 := by
  refine automation.outcome_kept policy event (I := fun _ => Unwritten s) target
    (fun _ => Unwritten.refl s) (fun rule _ => ?_) ?_
  · exact triple_fires fun pullRequest _ _ before => before.service (by simp)
  · intro answer read duty member
    obtain ⟨round, rfl⟩ := automation.rounds_agenda planned _ answer read duty member
    exact ⟨fun _ _ before => before, fun _ _ => round.triple_unwritten⟩

end Automation

/-! ## Companion cards one by one -/

/-- The columns have received just the notes that were due. -/
structure Receives (s : Store) (due : List (ColumnId × String)) (t : Store) : Prop where
  later : s.Later t
  counted : ∀ id text, (s.received t id text).length = due.count (id, text)

namespace Receives

theorem start (wellFormed : s.WellFormed) : Receives s [] s where
  later := .refl wellFormed
  counted id text := by simp [wellFormed.received_self]

/-- A new card with a note is received by its column. -/
theorem create (before : Receives s due t) {id : ColumnId} (there : (s.column? id).isSome)
    (text : String) :
    ∃ card t', t.createCard id (.note text) = (.ok card, t') ∧
      Receives s (due ++ [(id, text)]) t' ∧ card ∈ t'.cardsIn id := by
  obtain ⟨card, t', success, later⟩ := before.later.createCard there (.note text)
  refine ⟨card, t', success, ⟨later, fun other written => ?_⟩, ?_⟩
  · rw [before.later.length_received_createCard success, before.counted, List.count_append,
      List.count_singleton]
    simp
  · rw [(Store.createCard_ok success).2.1, if_pos rfl]
    exact List.mem_cons_self

/-- A card that is moved within its column stays received there. -/
theorem move (before : Receives s due t) {card : CardId} {id : ColumnId} {after : Option CardId}
    {t' : Store} (inside : card ∈ t.cardsIn id) (success : t.moveCard card id after = (.ok (), t')) :
    Receives s due t' where
  later := before.later.moveCard success
  counted other written := by
    rw [before.later.wellFormed.length_received_moveCard success inside]
    exact before.counted other written

end Receives

theorem RuleRun.triple_addCompanion_receives {column : Column} (text : String)
    (there : (s.column? column.id).isSome) :
    Triple Store.service (fun _ => Receives s due) (addCompanion column text)
      (fun _ _ => Receives s (due ++ [(column.id, text)])) fun _ _ _ => True := by
  unfold addCompanion
  refine triple_bind (Q := fun card _ t => Receives s (due ++ [(column.id, text)]) t ∧
    card ∈ t.cardsIn column.id) (triple_attempt ?_) fun card => ?_
  · intro actions t before
    obtain ⟨card, t', success, after⟩ := before.create there text
    have asked : (Dialogue.call (.createCard column.id (.note text))).run Store.service t =
      (.ok card, t') := success
    rw [asked]
    exact after
  · refine triple_bind (Q := fun _ _ t => Receives s (due ++ [(column.id, text)]) t ∧
      card ∈ t.cardsIn column.id) (triple_note fun _ _ after => after) fun _ => ?_
    cases column.lastCard?.map (·.id) with
    | none => exact triple_pure fun _ _ after => after.1
    | some anchor =>
      refine triple_bind (Q := fun _ _ => Receives s (due ++ [(column.id, text)]))
        (triple_change ?_) fun _ => triple_note fun _ _ after => after
      rintro actions t ⟨before, inside⟩
      change Dialogue.Either _ _ (t.moveCard card column.id (some anchor)).1
        (t.moveCard card column.id (some anchor)).2
      rcases result : t.moveCard card column.id (some anchor) with ⟨error | _, t'⟩
      · trivial
      · exact before.move inside result

/-! ## Companion cards of an automation -/

/-- The column that gets a companion card because of a rule, and the note. -/
def SideEffect.request? (effect : SideEffect) (memberships : List Membership)
    (candidate : Membership × PlacedRule) : Option (ColumnId × String) :=
  (effect.companion? memberships candidate.2.declaration.arguments).map
    fun (column, text) => (column.id, text)

namespace Automation

variable (automation : Automation) (policy : RetryPolicy) (event : Event)

/-- The columns that are to get a companion card, and the note of each, in the order of the rules. -/
def companions (s : Store) (target : Target) : List (ColumnId × String) :=
  match target, automation.createsCard, automation.sideEffect with
  | .entity url, false, some effect =>
    (automation.firing event url s).filterMap (effect.request? (s.membershipsOf url))
  | _, _, _ => []

theorem companions_of_planned (planned : automation.Planned target) :
    automation.companions event s target = [] := by
  unfold companions
  cases target with
  | movedCard card => rfl
  | entity url =>
    rcases planned with creates | plain
    · rw [creates]
    · rw [plain]
      cases automation.createsCard <;> rfl

theorem companions_of_effect {effect : SideEffect} {url : EntityUrl}
    (moves : ¬ automation.createsCard = true) (named : automation.sideEffect = some effect) :
    automation.companions event s (.entity url) =
      (automation.firing event url s).filterMap (effect.request? (s.membershipsOf url)) := by
  unfold companions
  rw [named, eq_false_of_ne_true moves]

variable {effect : SideEffect} {url : EntityUrl} {found : EntityMemberships}

/-- No card that the column shows when the automation reads the boards has the note. -/
theorem unseen_of_companions (wellFormed : s.WellFormed) {id : ColumnId} {text : String}
    (due : (id, text) ∈ automation.companions event s target) :
    ∀ card ∈ Store.windowOf (s.cardsIn id), s.cardNote? card ≠ some text := by
  unfold companions at due
  split at due
  · obtain ⟨⟨membership, rule⟩, fired, chosen⟩ := List.mem_filterMap.mp due
    obtain ⟨⟨column, note⟩, companion, same⟩ := Option.map_eq_some_iff.mp chosen
    cases same
    obtain ⟨found, answer, cards⟩ := Store.found_of_mem (listed_of_firing fired).1
    rw [← cards] at companion
    obtain ⟨name, chosen⟩ := SideEffect.column_of_companion? companion
    obtain ⟨source, here, rfl, unseen⟩ := Store.view_of_columnForNote? answer chosen
    have contents : s.cardsIn (s.columnView source).id = source.cards := wellFormed.cardsIn_eq here
    intro card shown
    rw [contents] at shown
    rw [s.window_columnView] at unseen
    exact unseen _ (List.mem_map_of_mem shown)
  · cases due

/-- Without failing reads, the side effect is applied as the rules that fire say. -/
theorem perform_work_effect (url : EntityUrl) (reads : s.failingReads = 0)
    (moves : ¬ automation.createsCard = true) (named : automation.sideEffect = some effect) :
    RuleRun.perform Store.service (automation.work policy event (.entity url)) [] s =
      match Store.cardMemberships url s with
      | .error error => ((.error (.tracking error), []), s)
      | .ok found =>
        RuleRun.perform Store.service ((automation.firing event url s).forM fun candidate =>
          RuleRun.carryOut effect (.memberships (found.cards.getD [])) candidate.2) [] s := by
  have answered : (Store.service (.cardMemberships url) s).1 = Store.cardMemberships url s :=
    congrArg Prod.fst (Store.read_calm reads _)
  rw [automation.perform_work_calm policy event reads (automation.agenda_of_effect moves named url)]
  dsimp only
  rw [answered]
  cases answer : Store.cardMemberships url s with
  | error error => rfl
  | ok found =>
    dsimp only
    unfold due firing
    rw [Store.membershipsOf_eq answer, List.filter_map, List.forM_eq_forM, List.forM_map]
    rfl

theorem receives_work (wellFormed : s.WellFormed)
    (answer : Store.cardMemberships url s = .ok found) (effect : SideEffect)
    (candidates : List (Membership × PlacedRule)) :
    RuleRun.Triple Store.service (fun _ => Receives s [])
      (candidates.forM fun candidate =>
        RuleRun.carryOut effect (.memberships (found.cards.getD [])) candidate.2)
      (fun _ _ => Receives s (candidates.filterMap (effect.request? (found.cards.getD []))))
      fun _ _ _ => True := by
  refine RuleRun.triple_forM_done (I := fun done _ =>
    Receives s (done.filterMap (effect.request? (found.cards.getD [])))) ?_
  intro done candidate rest _
  rw [RuleRun.carryOut_memberships, List.filterMap_append]
  cases chosen : effect.companion? (found.cards.getD []) candidate.2.declaration.arguments with
  | none =>
    have unrequested : effect.request? (found.cards.getD []) candidate = none := by
      simp [SideEffect.request?, chosen]
    rw [List.filterMap_cons_none unrequested, List.filterMap_nil, List.append_nil]
    exact RuleRun.triple_pure fun _ _ before => before
  | some companion =>
    obtain ⟨column, text⟩ := companion
    have requested : effect.request? (found.cards.getD []) candidate = some (column.id, text) := by
      simp [SideEffect.request?, chosen]
    rw [List.filterMap_cons_some requested, List.filterMap_nil]
    obtain ⟨name, chosen⟩ := SideEffect.column_of_companion? chosen
    exact RuleRun.triple_addCompanion_receives text
      (Store.columnForNote?_some wellFormed answer chosen).1

theorem receives_effect (wellFormed : s.WellFormed) (reads : s.failingReads = 0)
    (moves : ¬ automation.createsCard = true) (named : automation.sideEffect = some effect)
    (id : ColumnId) (text : String) :
    (s.received ((automation.outcome policy event (.entity url)).run Store.service s).2 id text).length =
      (automation.companions event s (.entity url)).count (id, text) := by
  have work := automation.perform_work_effect policy event url reads moves named
  rw [automation.companions_of_effect event moves named]
  cases answer : Store.cardMemberships url s with
  | error error =>
    rw [answer] at work
    have unfired : automation.firing event url s = [] := by
      unfold firing Store.membershipsOf
      rw [answer]
      rfl
    rw [automation.run_outcome work, unfired, wellFormed.received_self]
    rfl
  | ok found =>
    rw [answer] at work
    dsimp only at work
    obtain ⟨_, read⟩ : ∃ answer, Store.service (automation.agenda (.entity url)).reads s =
        (.ok answer, s) := by
      rw [automation.agenda_of_effect moves named]
      exact ⟨found, (Store.read_calm reads _).trans (by rw [answer])⟩
    have keeps : automation.KeepsPut (.entity url) := Or.inr (by rw [named]; rfl)
    obtain ⟨actions, s', performed, _⟩ :=
      automation.lowering_work policy event wellFormed reads keeps read
    have received := receives_work wellFormed answer effect (automation.firing event url s) [] s
      (.start wellFormed)
    rw [← work, performed] at received
    rw [automation.run_outcome performed, received.counted, Store.membershipsOf_eq answer]

/-- Every column receives just the companion cards that are due. -/
theorem receives_outcome (wellFormed : s.WellFormed) (reads : s.failingReads = 0) (target : Target)
    (id : ColumnId) (text : String) :
    (s.received ((automation.outcome policy event target).run Store.service s).2 id text).length =
      (automation.companions event s target).count (id, text) := by
  by_cases planned : automation.Planned target
  · rw [(automation.unwritten_outcome policy event planned s).received,
      automation.companions_of_planned event planned]
    rfl
  · cases target with
    | movedCard card => exact absurd trivial planned
    | entity url =>
      obtain ⟨moves, effects⟩ := not_or.mp planned
      obtain ⟨effect, named⟩ := Option.ne_none_iff_exists'.mp effects
      exact automation.receives_effect policy event wellFormed reads moves named id text

end Automation

/-! ## Dispatches -/

namespace Dispatcher

variable (policy : RetryPolicy) (event : Event)

/-- What is due for automations that run one after the other. -/
def companionsIn (target : Target) : List Automation → Store → List (ColumnId × String)
  | [], _ => []
  | automation :: rest, s => automation.companions event s target ++
      companionsIn target rest ((automation.outcome policy event target).run Store.service s).2

/-- The companion cards that are due in a dispatch to automations. -/
def companions (automations : List Automation) (s : Store) : List (ColumnId × String) :=
  match s.target? policy event with
  | none => []
  | some target => companionsIn policy event target automations s

/-- The column shows no card with the note when the automation that asks for one has its turn. -/
theorem unseen_of_companionsIn (automations : List Automation) (wellFormed : s.WellFormed)
    (target : Target) {id : ColumnId} {text : String}
    (due : (id, text) ∈ companionsIn policy event target automations s) :
    ∃ before, before <+: automations ∧
      let t := ((outcomes policy event target before).run Store.service s).2
      ∀ card ∈ Store.windowOf (t.cardsIn id), t.cardNote? card ≠ some text := by
  induction automations generalizing s with
  | nil => cases due
  | cons automation rest others =>
    rcases List.mem_append.mp due with now | later
    · exact ⟨[], List.nil_prefix, automation.unseen_of_companions event wellFormed now⟩
    · have frame := automation.framed_outcome policy event wellFormed target
      obtain ⟨before, early, unseen⟩ := others frame.wellFormed later
      refine ⟨automation :: before, (List.prefix_cons_inj automation).mpr early, ?_⟩
      unfold outcomes
      rw [Dialogue.run_bind, Dialogue.run_bind]
      exact unseen

theorem receives_outcomes (automations : List Automation) (wellFormed : s.WellFormed)
    (reads : s.failingReads = 0) (target : Target) (id : ColumnId) (text : String) :
    (s.received ((outcomes policy event target automations).run Store.service s).2 id text).length =
      (companionsIn policy event target automations s).count (id, text) := by
  induction automations generalizing s with
  | nil =>
    change (s.received s id text).length = _
    rw [wellFormed.received_self]
    rfl
  | cons automation rest others =>
    have first := automation.framed_outcome policy event wellFormed target
    have second := framed_outcomes policy event target rest first.wellFormed
    have calm : Store.Calm s _ := Store.Calm.run ⟨reads, rfl⟩ (automation.outcome policy event target)
    unfold outcomes companionsIn
    rw [Dialogue.run_bind, Dialogue.run_bind, List.count_append,
      ← automation.receives_outcome policy event wellFormed reads target,
      ← others first.wellFormed calm.reads]
    exact first.length_received second

end Dispatcher

namespace Router

/-- An event leads to the work of the automations that listen to it, if it is about something. -/
theorem run_route_calm (policy : RetryPolicy) (catalog : Catalog) (event : Event)
    (reads : s.failingReads = 0) :
    (((ofCatalog policy catalog).route event).run Store.service s).2 =
      match s.target? policy event with
      | none => s
      | some target => ((Dispatcher.outcomes policy event target
          (catalog.listeners event.trigger)).run Store.service s).2 := by
  unfold route
  rw [dispatcher?_ofCatalog]
  by_cases unheard : catalog.listeners event.trigger = []
  · rw [if_pos unheard, unheard]
    cases s.target? policy event <;> rfl
  · rw [if_neg unheard]
    dsimp only
    have known : s.target? policy event = (((⟨event.trigger, catalog.listeners event.trigger,
      policy⟩ : Dispatcher).resolve event).run Store.service s).1.toOption := rfl
    rw [Dialogue.run_bind, Dispatcher.run_dispatch_calm rfl reads, known]
    cases (((⟨event.trigger, catalog.listeners event.trigger,
      policy⟩ : Dispatcher).resolve event).run Store.service s).1 <;> rfl

/-- Every column receives one card for each time that a companion note is due for it, and no other
notes. So it receives none of them twice exactly if none is due twice. A note is due only for a column
that does not show it when the automation has its turn. -/
theorem companions_received (policy : RetryPolicy) (catalog : Catalog) (event : Event) (s : Store)
    (reachable : s.Reachable) (reads : s.failingReads = 0) :
    let reached := (((ofCatalog policy catalog).route event).run Store.service s).2
    let automations := catalog.listeners event.trigger
    let due := Dispatcher.companions policy event automations s
    (∀ id text, (s.received reached id text).length = due.count (id, text)) ∧
      ((∀ id text, (s.received reached id text).length ≤ 1) ↔ due.Nodup) ∧
      ∀ id text, (id, text) ∈ due → ∃ target ∈ s.target? policy event, ∃ before,
        before <+: automations ∧
          let t := ((Dispatcher.outcomes policy event target before).run Store.service s).2
          ∀ card ∈ Store.windowOf (t.cardsIn id), t.cardNote? card ≠ some text := by
  intro reached automations due
  have wellFormed := reachable.wellFormed
  have counted : ∀ id text, (s.received reached id text).length = due.count (id, text) := by
    intro id text
    subst reached automations due
    rw [run_route_calm policy catalog event reads]
    unfold Dispatcher.companions
    cases s.target? policy event with
    | none =>
      dsimp only
      rw [wellFormed.received_self]
      rfl
    | some target =>
      exact Dispatcher.receives_outcomes policy event _ wellFormed reads target id text
  refine ⟨counted, ?_, ?_⟩
  · rw [List.nodup_iff_count_le_one, Prod.forall]
    simp only [counted]
  · intro id text asked
    subst automations due
    unfold Dispatcher.companions at asked
    cases known : s.target? policy event with
    | none =>
      rw [known] at asked
      cases asked
    | some target =>
      rw [known] at asked
      exact ⟨target, rfl, Dispatcher.unseen_of_companionsIn policy event _ wellFormed target asked⟩

/-- Two notes on the board of an issue, above its card, and an empty column next to them. -/
def requesting (one other : String) : Store :=
  [.addBoard (.owner "octo") "Plan", .addColumn ⟨"board-1"⟩ "Triage", .addColumn ⟨"board-1"⟩ "Done",
    .addEntity ⟨.https, "github.com", "octo", "demo", .issue, 7⟩,
    .appendCard ⟨"column-2"⟩ (.note one), .appendCard ⟨"column-2"⟩ (.note other),
    .appendCard ⟨"column-2"⟩ (.entity ⟨"entity-4"⟩)].foldl Store.perform .empty

/-- Rules for different repositories add a companion card each. -/
theorem companions_received_apart :
    let s := requesting "- `add_close_issue` **Done**" "- `add_close_issue` **Done** **docs**"
    let reached := (((ofCatalog .default .builtin).route (.ofLabel "bug")).run Store.service s).2
    reached.cardsIn ⟨"column-3"⟩ = [⟨"card-9"⟩, ⟨"card-8"⟩] ∧
      ∀ id text, (s.received reached id text).length ≤ 1 := by
  intro s reached
  obtain ⟨_, once, _⟩ := companions_received .default .builtin (.ofLabel "bug") s
    (Store.Reachable.foldl _ _ .empty) (by decide +kernel)
  exact ⟨by decide +kernel, once.mpr (by decide +kernel)⟩

/-- Rules that agree add the same note twice. -/
theorem companions_received_twice : ¬ ∀ (policy : RetryPolicy) (event : Event) (s : Store),
    s.Reachable → s.failingReads = 0 → event.trigger = .issueLabeled → ∀ id text,
      (s.received (((ofCatalog policy .builtin).route event).run Store.service s).2 id text).length ≤
        1 := by
  intro always
  have once := always .default (.ofLabel "bug")
    (requesting "- `add_close_issue` **Done**" "- `add_close_issue` **Done**")
    (Store.Reachable.foldl _ _ .empty) (by decide +kernel) rfl ⟨"column-3"⟩ (companionNote [])
  revert once
  decide +kernel

end Router

end BoardRules
