import BoardRules.Proofs.Dispatch.Bystanders
import BoardRules.Proofs.Dispatch.Calls

/-!
# Exact anchors

The two windows show enough of a column of any length: a rule that is found in them has no anchor
just if its card is the last one of the whole column, and otherwise that last card is its anchor. So
the cards of rules that fire are put behind the last cards of their columns, and a card for which no
such call is made was the last one itself when the column was read.
-/
namespace BoardRules

variable {σ : Type}

/-- The windows of the view are the first of the cards and the last two of them, in order. -/
structure Column.ShowsEnds (view : Column) (cards : List CardId) : Prop where
  leading : view.leading.map (·.id) <+: cards
  leading_length : view.leading.length = min 1 cards.length
  trailing : view.trailing.map (·.id) <:+ cards
  trailing_length : view.trailing.length = min 2 cards.length

/-- The card of the rule is one of these cards, and its anchor is the last of them, or absent just
if the card is the last one itself. -/
structure PlacedRule.AnchoredIn (rule : PlacedRule) (cards : List CardId) : Prop where
  placed : rule.card ∈ cards
  absent : rule.anchor = none ↔ cards.getLast? = some rule.card
  last : ∀ anchor, rule.anchor = some anchor → cards.getLast? = some anchor

/-- The rules that are found in the answer to a call. -/
def Call.rulesRead : (call : Call) → call.Answer → List PlacedRule
  | .boardsForEntity _, found => PlacedRule.ofBoards found.boards
  | .cardContext _, context => PlacedRule.ofColumn context.column
  | .cardMemberships _, found =>
    (found.cards.getD []).flatMap fun membership => PlacedRule.ofBoards [membership.board]
  | _, _ => []

/-- The call that puts the card of a rule to the bottom of its column, unless it is there. -/
def Store.dueReposition (s : Store) (rule : PlacedRule) : List Call :=
  let last := (s.cardsIn rule.column.id).getLast?
  if last = some rule.card then [] else [.moveCard rule.card rule.column.id last]

/-! ## Views of columns -/

namespace Store

theorem map_cardView (s : Store) (cards : List CardId) :
    (cards.map s.cardView).map (·.id) = cards := by
  rw [List.map_map]
  exact List.map_id' cards

theorem showsEnds_columnView (s : Store) (column : StoredColumn) :
    (s.columnView column).ShowsEnds column.cards where
  leading := by
    rw [columnView, map_cardView]
    exact List.take_prefix _ _
  leading_length := by
    rw [columnView, List.length_map, List.length_take]
    rfl
  trailing := by
    rw [columnView, map_cardView]
    exact List.drop_suffix _ _
  trailing_length := by
    rw [columnView, List.length_map, List.length_drop]
    unfold trailingWindow
    omega

end Store

/-! ## Rules of views -/

namespace PlacedRule

variable {rule : PlacedRule} {cards : List CardId}

/-- The anchor is the last card unless that is the rule's own. -/
theorem anchoredIn_of_filter (placed : rule.card ∈ cards)
    (anchored : rule.anchor = cards.getLast?.filter (· ≠ rule.card)) : rule.AnchoredIn cards where
  placed := placed
  absent := by
    obtain ⟨last, final⟩ := Option.isSome_iff_exists.mp
      (List.getLast?_isSome.mpr (List.ne_nil_of_mem placed))
    rw [anchored, final]
    by_cases own : last = rule.card <;> simp [Option.filter, own]
  last anchor here := by
    rw [anchored] at here
    exact (Option.filter_eq_some_iff.mp here).1

/-- What the rule leads to, told by the cards of its column. -/
theorem AnchoredIn.calls_lowering {s : Store}
    (anchored : rule.AnchoredIn (s.cardsIn rule.column.id)) :
    rule.lowering.map Step.call = s.dueReposition rule := by
  unfold lowering Store.dueReposition
  cases anchor : rule.anchor with
  | none =>
    rw [if_pos (anchored.absent.mp anchor)]
    rfl
  | some last =>
    have below : (s.cardsIn rule.column.id).getLast? ≠ some rule.card := by
      intro own
      cases (anchored.absent.mpr own).symm.trans anchor
    rw [if_neg below, anchored.last last anchor]
    rfl

end PlacedRule

theorem Store.Shows.anchoredIn {s : Store} {rule : PlacedRule} (shown : s.Shows rule) :
    rule.AnchoredIn (s.cardsIn rule.column.id) :=
  PlacedRule.anchoredIn_of_filter shown.placed shown.anchored

/-- A rule that is read says of the store what is so, whatever it is read for. -/
theorem Store.WellFormed.shows_rulesRead {s : Store} (wellFormed : s.WellFormed) {call : Call}
    {answer : call.Answer} (answered : (Store.service call s).1 = .ok answer) {rule : PlacedRule}
    (found : rule ∈ call.rulesRead answer) : s.Shows rule := by
  cases call with
  | boardsForEntity url =>
    obtain ⟨boards, stored, views⟩ := Store.boardsForEntity_ok (Store.read_ok answered)
    change rule ∈ PlacedRule.ofBoards (EntityBoards.boards answer) at found
    rw [views] at found
    exact wellFormed.shows_ofBoards stored found
  | cardContext card =>
    obtain ⟨column, stored, _, rfl⟩ := Store.cardContext_ok (Store.read_ok answered)
    have extracted : rule ∈ PlacedRule.ofColumns [] ([column].map s.columnView) := found
    exact wellFormed.shows (by simpa using stored) extracted
  | cardMemberships url =>
    obtain ⟨membership, listed, extracted⟩ := List.mem_flatMap.mp found
    obtain ⟨_, board, stored, shown, _⟩ :=
      Store.place_of_membership (Store.read_ok answered) listed
    rw [shown] at extracted
    have views : [s.boardView board] = [board].map s.boardView := rfl
    exact wellFormed.shows_ofBoards (by simpa using stored) (views ▸ extracted)
  | pullRequestBody | reviews | createCard | moveCard | closeIssue => cases found

/-! ## Repositions of a run -/

/-- The call puts a card behind another one. -/
def Call.lowers : Call → Bool
  | .moveCard _ _ (some _) => true
  | _ => false

theorem Call.lowers_of_read {call : Call} (isRead : call.isRead = true) : call.lowers = false := by
  cases call with
  | moveCard => cases isRead
  | _ => rfl

theorem Call.filter_lowers_of_reads {calls : List Call}
    (reads : ∀ call ∈ calls, call.isRead = true) : calls.filter lowers = [] := by
  refine List.filter_eq_nil_iff.mpr fun call member => ?_
  rw [lowers_of_read (reads call member)]
  exact Bool.false_ne_true

theorem PlacedRule.lowers_lowering (rule : PlacedRule) :
    (rule.lowering.map Step.call).filter Call.lowers = rule.lowering.map Step.call := by
  unfold lowering
  cases rule.anchor <;> rfl

theorem RuleRun.calls_reposition (service : Service σ) (rule : PlacedRule) (actions : List Action)
    (s : σ) : calls service (reposition rule) actions s = rule.lowering.map Step.call := by
  unfold reposition PlacedRule.lowering
  rw [moveBehind_eq]
  cases rule.anchor with
  | none => rfl
  | some anchor =>
    -- A single step is asked for even if it is refused.
    rw [Option.toList_some, List.map_singleton, List.forM_eq_forM, List.forM_cons, calls_bind,
      calls_take]
    rcases perform service _ actions s with ⟨⟨_ | _, noted⟩, reached⟩ <;> rfl

/-- The work consists of steps that put no cards behind others but that of the rule itself. -/
def Duty.LowersOwn (duty : Duty) : Prop :=
  ∃ steps : List Step, duty.work = steps.forM Step.take ∧
    (steps.map Step.call).filter Call.lowers = duty.rule.lowering.map Step.call

theorem Round.lowersOwn {round : Round} (first : List Step)
    (steps : round.steps = first ++ round.rule.lowering)
    (plain : (first.map Step.call).filter Call.lowers = []) : round.duty.LowersOwn := by
  refine ⟨round.steps, round.duty_work, ?_⟩
  rw [steps, List.map_append, List.filter_append, plain, List.nil_append]
  exact round.rule.lowers_lowering

/-- The duties are those of rules that have been read. -/
def Agenda.LowersOwn (agenda : Agenda) : Prop :=
  ∀ answer, ∀ duty ∈ agenda.duties answer,
    duty.LowersOwn ∧ duty.rule ∈ agenda.reads.rulesRead answer

namespace Automation

variable (automation : Automation) (policy : RetryPolicy) (event : Event) {target : Target}

theorem lowers_closeLinked (linked : Option LinkedEntity) :
    ((automation.closeLinked linked).map Step.call).filter Call.lowers = [] := by
  unfold closeLinked
  split
  · split <;> rfl
  · rfl

theorem lowersOwn_agenda (planned : automation.Planned target) :
    (automation.agenda target).LowersOwn := by
  cases target with
  | movedCard card =>
    intro context duty member
    obtain ⟨round, listed, rfl⟩ := List.mem_map.mp member
    obtain ⟨rule, named, rfl⟩ := List.mem_map.mp listed
    exact ⟨Round.lowersOwn _ rfl (automation.lowers_closeLinked _),
      (PlacedRule.mem_named.mp named).1⟩
  | entity url =>
    by_cases creates : automation.createsCard = true
    · rw [automation.agenda_of_creates creates]
      intro found duty member
      obtain ⟨round, listed, rfl⟩ := List.mem_map.mp member
      obtain ⟨rule, named, rfl⟩ := List.mem_map.mp listed
      exact ⟨Round.lowersOwn [_] rfl rfl, (PlacedRule.mem_named.mp named).1⟩
    · rw [automation.agenda_of_moves creates (planned.resolve_left creates)]
      intro found duty member
      obtain ⟨round, listed, rfl⟩ := List.mem_map.mp member
      obtain ⟨membership, seen, paired⟩ := List.mem_flatMap.mp listed
      obtain ⟨rule, named, rfl⟩ := List.mem_map.mp paired
      exact ⟨Round.lowersOwn [_] rfl rfl,
        List.mem_flatMap.mpr ⟨membership, seen, (PlacedRule.mem_named.mp named).1⟩⟩

/-- To find out whether a rule fires takes only reads. -/
theorem isRead_of_mem_calls_fires {service : Service σ} {rule : PlacedRule} {actions : List Action}
    {s : σ} {call : Call}
    (member : call ∈ RuleRun.calls service (automation.fires policy event rule) actions s) :
    call.isRead = true := by
  unfold fires Matcher.fires at member
  rw [RuleRun.calls_attempt] at member
  cases matcher : automation.matcher with
  | payload test =>
    rw [matcher] at member
    cases member
  | reviewAccepted =>
    rw [matcher] at member
    unfold reviewsAccept at member
    cases locator : event.locator with
    | none =>
      rw [locator] at member
      cases member
    | some pullRequest =>
      simp only [locator, Dialogue.calls_bind] at member
      rcases List.mem_append.mp member with read | nothing
      · rw [Dialogue.eq_of_mem_calls_read rfl read]
        rfl
      · cases nothing

theorem lowers_fires (service : Service σ) (rule : PlacedRule) (actions : List Action) (s : σ) :
    (RuleRun.calls service (automation.fires policy event rule) actions s).filter Call.lowers =
      [] :=
  Call.filter_lowers_of_reads fun _ => automation.isRead_of_mem_calls_fires policy event

/-- As far as the duties are done, the cards of the rules that fire are put behind their anchors, in
order. -/
theorem lowers_discharge (service : Service σ) (duties : List Duty)
    (each : ∀ duty ∈ duties, duty.LowersOwn) (actions : List Action) (s : σ) :
    let work := automation.discharge policy event duties
    let sent := (RuleRun.calls service work actions s).filter Call.lowers
    let due := (automation.firedAmong policy event service duties actions s).flatMap fun rule =>
      rule.lowering.map Step.call
    sent <+: due ∧ ((RuleRun.perform service work actions s).1.1.isOk = true → sent = due) := by
  induction duties generalizing actions s with
  | nil => exact ⟨List.prefix_refl [], fun _ => rfl⟩
  | cons duty rest others =>
    have later := others fun other member => each other (List.mem_cons_of_mem _ member)
    obtain ⟨steps, work, own⟩ := each duty List.mem_cons_self
    dsimp only
    rw [discharge_cons, RuleRun.calls_bind, RuleRun.calls_bind, RuleRun.perform_bind,
      RuleRun.perform_bind, RuleRun.perform_bind, firedAmong, List.filter_append,
      List.filter_append, lowers_fires, List.nil_append]
    rcases RuleRun.perform service (automation.fires policy event duty.rule) actions s with
      ⟨⟨_ | fires, actions'⟩, s'⟩
    · refine ⟨List.prefix_refl [], fun success => ?_⟩
      cases success
    · cases fires with
      | false => exact later actions' s'
      | true =>
        obtain ⟨begun, complete⟩ := RuleRun.calls_steps service actions' s' steps
        rw [← work] at begun complete
        dsimp only
        rw [if_pos rfl, List.flatMap_cons, ← own]
        rcases result : RuleRun.perform service duty.work actions' s' with
          ⟨⟨_ | _, actions''⟩, s''⟩
        · rw [List.flatMap_nil, List.filter_nil, List.append_nil, List.append_nil]
          refine ⟨begun.filter Call.lowers, fun success => ?_⟩
          cases success
        · rw [complete (congrArg (·.1.1.isOk) result)]
          obtain ⟨onwards, ended⟩ := later actions'' s''
          exact ⟨(List.prefix_append_right_inj _).mpr onwards,
            fun success => congrArg (_ ++ ·) (ended success)⟩

/-- The rules that fire are among those of the duties. -/
theorem mem_firedAmong {service : Service σ} {duties : List Duty} {actions : List Action} {s : σ}
    {rule : PlacedRule}
    (member : rule ∈ automation.firedAmong policy event service duties actions s) :
    ∃ duty ∈ duties, duty.rule = rule := by
  have among : ∀ other ∈ [] ++ automation.firedAmong policy event service duties actions s,
      ∃ duty ∈ duties, duty.rule = other :=
    automation.discharge_kept policy event
      (I := fun done _ => ∀ other ∈ done, ∃ duty ∈ duties, duty.rule = other) duties
      (fun _ _ _ => RuleRun.triple_fact)
      (fun duty listed _ _ before => List.forall_mem_append.mpr
        ⟨before, List.forall_mem_singleton.mpr ⟨duty, listed, rfl⟩⟩)
      (fun _ _ _ _ => RuleRun.triple_fact) [] actions s (List.forall_mem_nil _)
  exact among rule member

/-- No cards are put anywhere before the duties are known. -/
theorem lowers_work (service : Service σ) (target : Target) (s : σ) :
    (RuleRun.calls service (automation.work policy event target) [] s).filter Call.lowers =
      match (Dialogue.read policy (automation.agenda target).reads).run service s with
      | (.error _, _) => []
      | (.ok answer, s') => (RuleRun.calls service (automation.discharge policy event
          ((automation.agenda target).duties answer)) [] s').filter Call.lowers := by
  have isRead := automation.isRead_agenda target
  have reading : ((Dialogue.read policy (automation.agenda target).reads).calls service s).filter
      Call.lowers = [] :=
    Call.filter_lowers_of_reads fun _ member =>
      Dialogue.eq_of_mem_calls_read isRead member ▸ isRead
  rw [automation.work_eq_discharge, RuleRun.calls_bind, RuleRun.calls_read, List.filter_append,
    reading, List.nil_append]
  unfold RuleRun.read
  rw [RuleRun.perform_attempt]
  rcases (Dialogue.read policy (automation.agenda target).reads).run service s with
    ⟨_ | answer, s'⟩ <;> rfl

/-- With any service, a planned automation puts the cards of the rules that fire behind their
anchors, in order, as far as it gets. -/
theorem lowers_outcome (service : Service σ) (planned : automation.Planned target) (s : σ) :
    let outcome := automation.outcome policy event target
    let sent := (outcome.calls service s).filter Call.lowers
    let due := (automation.fired policy event service target s).flatMap fun rule =>
      rule.lowering.map Step.call
    sent <+: due ∧ ((outcome.run service s).1.error = none → sent = due) := by
  dsimp only
  rw [automation.calls_outcome, lowers_work]
  unfold fired
  rcases answered : (Dialogue.read policy (automation.agenda target).reads).run service s with
    ⟨error | answer, s'⟩
  · exact ⟨List.prefix_refl [], fun _ => rfl⟩
  · obtain ⟨begun, complete⟩ := automation.lowers_discharge policy event service
      ((automation.agenda target).duties answer)
      (fun duty member => (automation.lowersOwn_agenda planned answer duty member).1) [] s'
    refine ⟨begun, fun clean => complete ?_⟩
    rcases performed : RuleRun.perform service (automation.discharge policy event
      ((automation.agenda target).duties answer)) [] s' with ⟨⟨result, actions⟩, reached⟩
    rw [automation.run_outcome ((automation.perform_work policy event answered).trans performed)]
      at clean
    cases result with
    | ok _ => rfl
    | error error => cases clean

/-- The rules that fire have been read from the store as it was. -/
theorem shows_fired {s : Store} (wellFormed : s.WellFormed) (planned : automation.Planned target)
    {rule : PlacedRule} (member : rule ∈ automation.fired policy event Store.service target s) :
    s.Shows rule := by
  have settled : (s.failNextReads 0).WellFormed := wellFormed.perform (.failNextReads 0)
  unfold fired at member
  rcases Store.run_read_cases policy (automation.isRead_agenda target) s with
    ⟨error, left, failed⟩ | ⟨answer, answered, ran⟩
  · rw [failed] at member
    cases member
  · rw [ran] at member
    obtain ⟨duty, listed, rfl⟩ := automation.mem_firedAmong policy event member
    have shown := settled.shows_rulesRead (congrArg Prod.fst answered)
      (automation.lowersOwn_agenda planned answer duty listed).2
    exact ⟨shown.placed, shown.declared, shown.anchored⟩

end Automation

namespace Store

/-- The windows of a column of any length are its two ends. A rule that is found in them, and hence
any rule that is read, has the last card of the whole column for an anchor, or none just if that card
is its own. To reposition a rule thus takes one call, or none just if its card was the last one when
the column was read. Such calls for the rules that fire, in order, are all that a planned automation
sends to put cards behind others, and none of them is left out unless it fails. Side effects that
take the place of a move are not planned, and leave the cards of their rules where they are. -/
theorem anchors_exact {s : Store} (reachable : s.Reachable) :
    (∀ column ∈ s.columns, (s.columnView column).ShowsEnds column.cards ∧
      ∀ seen, ∀ rule ∈ PlacedRule.ofColumns seen [s.columnView column],
        rule.column.id = column.id ∧ rule.AnchoredIn column.cards) ∧
    (∀ (call : Call) (answer : call.Answer), (service call s).1 = .ok answer →
      ∀ rule ∈ call.rulesRead answer, rule.AnchoredIn (s.cardsIn rule.column.id) ∧
        ∀ (σ : Type) (other : Service σ) (actions : List Action) (t : σ),
          RuleRun.calls other (RuleRun.reposition rule) actions t = s.dueReposition rule) ∧
    ∀ (automation : Automation) (policy : RetryPolicy) (event : Event) (target : Target),
      automation.Planned target →
      let outcome := automation.outcome policy event target
      let fired := automation.fired policy event service target s
      let sent := (outcome.calls service s).filter Call.lowers
      (∀ rule ∈ fired, rule.AnchoredIn (s.cardsIn rule.column.id)) ∧
        sent <+: fired.flatMap s.dueReposition ∧
        ((outcome.run service s).1.error = none → sent = fired.flatMap s.dueReposition) := by
  have wellFormed := reachable.wellFormed
  refine ⟨?_, ?_, ?_⟩
  · intro column _
    refine ⟨s.showsEnds_columnView column, fun seen rule extracted => ?_⟩
    have viewed : rule ∈ PlacedRule.ofColumns seen ([column].map s.columnView) := extracted
    obtain ⟨_, member, here, placed, _, anchored⟩ := column_of_extracted viewed
    obtain rfl := List.mem_singleton.mp member
    exact ⟨congrArg ColumnRef.id here, PlacedRule.anchoredIn_of_filter placed anchored⟩
  · intro call answer answered rule found
    have anchored := (wellFormed.shows_rulesRead answered found).anchoredIn
    refine ⟨anchored, fun σ other actions t => ?_⟩
    rw [RuleRun.calls_reposition, anchored.calls_lowering]
  · intro automation policy event target planned outcome fired sent
    have anchored : ∀ rule ∈ fired, rule.AnchoredIn (s.cardsIn rule.column.id) :=
      fun rule member => (automation.shows_fired policy event wellFormed planned member).anchoredIn
    have due : fired.flatMap (fun rule => rule.lowering.map Step.call) =
        fired.flatMap s.dueReposition :=
      List.flatMap_congr fun rule member => (anchored rule member).calls_lowering
    rw [← due]
    exact ⟨anchored, automation.lowers_outcome policy event service planned s⟩

/-- Columns of no, one, two and four cards, all of them with rules but for one. -/
def ladder : Store :=
  [.addBoard (.owner "octo") "Plan", .addColumn ⟨"board-1"⟩ "Empty",
    .addColumn ⟨"board-1"⟩ "Short", .addColumn ⟨"board-1"⟩ "Even", .addColumn ⟨"board-1"⟩ "Long",
    .addEntity ⟨.https, "github.com", "octo", "demo", .issue, 7⟩,
    .appendCard ⟨"column-3"⟩ (.note "- `open`"),
    .appendCard ⟨"column-4"⟩ (.note "- `open`"), .appendCard ⟨"column-4"⟩ (.note "nothing"),
    .appendCard ⟨"column-5"⟩ (.note "- `open`"), .appendCard ⟨"column-5"⟩ (.note "- `open`"),
    .appendCard ⟨"column-5"⟩ (.note "- `open`"),
    .appendCard ⟨"column-5"⟩ (.note "- `open`")].foldl Store.perform .empty

/-- The second card of the longest column is not seen, and the last ones are left alone. -/
theorem anchors_exact_ladder :
    let automation : Automation := ⟨"open", .issueLabeled, .payload .always, true, none⟩
    let target : Target := .entity ⟨.https, "github.com", "octo", "demo", .issue, 7⟩
    let outcome := automation.outcome .default (.ofLabel "bug") target
    (outcome.run service ladder).1.error = none ∧
      (outcome.calls service ladder).filter Call.lowers =
        [.moveCard ⟨"card-8"⟩ ⟨"column-4"⟩ (some ⟨"card-9"⟩),
          .moveCard ⟨"card-10"⟩ ⟨"column-5"⟩ (some ⟨"card-13"⟩),
          .moveCard ⟨"card-12"⟩ ⟨"column-5"⟩ (some ⟨"card-13"⟩)] := by
  intro automation target outcome
  have clean : (outcome.run service ladder).1.error = none := by decide +kernel
  obtain ⟨_, _, complete⟩ := (anchors_exact (Reachable.foldl _ _ .empty)).2.2 automation .default
    (.ofLabel "bug") target (.inl rfl)
  exact ⟨clean, (complete clean).trans (by decide +kernel)⟩

end Store

end BoardRules
