import BoardRules.Proofs.Dispatch.SelfCorrection

/-!
# Settling

The service tells that a card has been moved also when an automation has moved it. How a column
looks before the first dispatch of a moved card decides whether later dispatches of the same event
move cards again: they never do, or they always do.
-/
namespace BoardRules

theorem Store.declaresNamed_congr {s s' : Store} (same : s'.cards = s.cards) (name : String) :
    s'.declaresNamed name = s.declaresNamed name := by
  funext card
  unfold declaresNamed declarations cardNote? card?
  rw [same]

/-! ## One dispatch after the other -/

/-- What a store keeps while an event about a moved card is dispatched to it. -/
structure Awaiting (s₀ : Store) (moved : CardId) (id : ColumnId) (s : Store) : Prop where
  wellFormed : s.WellFormed
  reads : s.failingReads = 0
  cards : s.cards = s₀.cards
  inside : moved ∈ s.cardsIn id

namespace Corrected

variable {s once twice : Store} {moved last last' : CardId} {id : ColumnId}
  {raised raised' : List CardId} {visited visited' : Bool} {report report' : Report}

theorem awaiting {s₀ : Store} (first : Corrected s moved id last raised visited report once)
    (before : Awaiting s₀ moved id s) : Awaiting s₀ moved id once where
  wellFormed := first.correcting.wellFormed
  reads := first.correcting.failingReads.trans before.reads
  cards := first.correcting.cards.trans before.cards
  inside := first.correcting.perm.mem_iff.mpr before.inside

theorem marked (first : Corrected s moved id last raised visited report once) (name : String) :
    once.declaresNamed name = s.declaresNamed name :=
  Store.declaresNamed_congr first.correcting.cards name

/-- Nothing is left to sink if the column settles at once. -/
theorem settles_iff (first : Corrected s moved id last raised visited report once)
    (wellFormed : s.WellFormed)
    (second : Corrected once moved id last' raised' visited' report' twice) :
    Store.SettlesAtOnce (s.declaresNamed "close_issue") (s.cardsIn id) ↔ raised' = [] := by
  have nodup := wellFormed.nodup_cardsIn id
  have exactly := first.exactly
  have settled := Store.settled_iff_raised second.exactly
  rw [first.correcting.contents, first.marked] at settled
  obtain ⟨above, cards⟩ := List.getLast?_eq_some_iff.mp first.final
  rw [cards] at nodup exactly settled ⊢
  exact (Store.settled_foldl_sink nodup exactly).symm.trans settled

/-- If nothing is left to sink then there is no issue left to close either. -/
theorem quiet (first : Corrected s moved id last raised visited report once)
    (second : Corrected once moved id last' raised' visited' report' twice)
    (none : raised' = []) : report'.actions = [] ∧ twice = once := by
  apply second.correcting.idle none
  by_cases again : visited' = true
  · have before : visited = true := by
      refine first.shown.mpr ?_
      cases raised with
      | nil =>
        have same : once.cardsIn id = s.cardsIn id := first.correcting.contents
        have shown := second.shown.mp again
        rw [same, first.marked] at shown
        exact shown
      | cons card rest =>
        obtain ⟨shown, mark, _⟩ := (first.exactly.iff card).mp List.mem_cons_self
        exact ⟨card, shown, mark⟩
    refine .inr ?_
    intro issue linked
    rw [first.correcting.linked] at linked
    obtain ⟨original, _, rfl⟩ := Option.map_eq_some_iff.mp linked
    rw [before]
    exact Bool.or_true _
  · exact .inl (by simpa using again)

theorem restless_of_not_settlesAtOnce
    (first : Corrected s moved id last raised visited report once) (wellFormed : s.WellFormed)
    (unsettled : ¬ Store.SettlesAtOnce (s.declaresNamed "close_issue") (s.cardsIn id)) :
    Store.Restless (once.declaresNamed "close_issue") (once.cardsIn id) := by
  have nodup := wellFormed.nodup_cardsIn id
  have exactly := first.exactly
  rw [first.correcting.contents, first.marked]
  obtain ⟨above, cards⟩ := List.getLast?_eq_some_iff.mp first.final
  rw [cards] at nodup exactly unsettled ⊢
  exact Store.restless_of_not_settlesAtOnce nodup exactly unsettled

/-- A restless column changes and stays restless. -/
theorem restless (first : Corrected s moved id last raised visited report once)
    (wellFormed : s.WellFormed)
    (before : Store.Restless (s.declaresNamed "close_issue") (s.cardsIn id)) :
    (report.actions ≠ [] ∧ once.cardsIn id ≠ s.cardsIn id) ∧
      Store.Restless (once.declaresNamed "close_issue") (once.cardsIn id) := by
  have nonempty : raised ≠ [] :=
    fun none => before.unsettled ((Store.settled_iff_raised first.exactly).mpr none)
  have nodup := wellFormed.nodup_cardsIn id
  have exactly := first.exactly
  rw [first.correcting.contents, first.marked]
  obtain ⟨above, cards⟩ := List.getLast?_eq_some_iff.mp first.final
  rw [cards] at nodup exactly before ⊢
  exact ⟨⟨first.correcting.busy nonempty, Store.foldl_sink_ne nodup exactly nonempty⟩,
    Store.restless_foldl_sink nodup exactly before⟩

end Corrected

/-! ## Any number of dispatches -/

namespace Router

/-- The store after a number of dispatches of one event. -/
def redeliver (router : Router) (event : Event) (s : Store) : Nat → Store
  | 0 => s
  | n + 1 => ((router.route event).run Store.service (router.redeliver event s n)).2

variable {event : Event} {card : CardId} {id : ColumnId} {s : Store}

/-- Every dispatch corrects the column once more. -/
theorem redeliver_corrected (policy : RetryPolicy) (wellFormed : s.WellFormed)
    (reads : s.failingReads = 0) (inside : card ∈ s.cardsIn id) (moves : event.Moves card) (n : Nat) :
    let state := (ofCatalog policy .builtin).redeliver event s
    Awaiting s card id (state n) ∧ ∃ last raised visited report,
      ((ofCatalog policy .builtin).route event).run Store.service (state n) =
        (.ok (some report), state (n + 1)) ∧
      Corrected (state n) card id last raised visited report (state (n + 1)) := by
  intro state
  have next (n : Nat) (before : Awaiting s card id (state n)) :
      ∃ last raised visited report,
        ((ofCatalog policy .builtin).route event).run Store.service (state n) =
          (.ok (some report), state (n + 1)) ∧
        Corrected (state n) card id last raised visited report (state (n + 1)) := by
    obtain ⟨last, raised, visited, report, s', ran, corrected⟩ :=
      moved_corrected policy before.wellFormed before.reads before.inside moves
    have reached : state (n + 1) = s' := congrArg Prod.snd ran
    rw [reached]
    exact ⟨last, raised, visited, report, ran, corrected⟩
  have awaiting : Awaiting s card id (state n) := by
    induction n with
    | zero => exact ⟨wellFormed, reads, rfl, inside⟩
    | succ n before =>
      obtain ⟨last, raised, visited, report, _, corrected⟩ := next n before
      exact corrected.awaiting before
  exact ⟨awaiting, next n awaiting⟩

/-- A dispatch that changes nothing is followed by others that change nothing. -/
theorem redeliver_settled (policy : RetryPolicy) (wellFormed : s.WellFormed)
    (reads : s.failingReads = 0) (inside : card ∈ s.cardsIn id) (moves : event.Moves card)
    (settles : Store.SettlesAtOnce (s.declaresNamed "close_issue") (s.cardsIn id)) (n : Nat) :
    let state := (ofCatalog policy .builtin).redeliver event s
    ∃ report, ((ofCatalog policy .builtin).route event).run Store.service (state (n + 1)) =
      (.ok (some report), state (n + 1)) ∧ report.isClean = true ∧ report.actions = [] := by
  intro state
  have corrected := redeliver_corrected policy wellFormed reads inside moves
  induction n with
  | zero =>
    obtain ⟨_, last, raised, visited, report, _, first⟩ := corrected 0
    obtain ⟨_, last', raised', visited', report', ran, second⟩ := corrected 1
    have none := (first.settles_iff wellFormed second).mp settles
    obtain ⟨idle, same⟩ := first.quiet second none
    refine ⟨report', ?_, second.clean, idle⟩
    rw [ran, same]
  | succ n earlier =>
    obtain ⟨report, ran, clean, idle⟩ := earlier
    have reached := congrArg Prod.snd ran
    have same : state (n + 2) = state (n + 1) := reached
    rw [same]
    exact ⟨report, ran, clean, idle⟩

theorem redeliver_restless (policy : RetryPolicy) (wellFormed : s.WellFormed)
    (reads : s.failingReads = 0) (inside : card ∈ s.cardsIn id) (moves : event.Moves card)
    (unsettled : ¬ Store.SettlesAtOnce (s.declaresNamed "close_issue") (s.cardsIn id)) (n : Nat) :
    let state := (ofCatalog policy .builtin).redeliver event s
    Store.Restless ((state (n + 1)).declaresNamed "close_issue") ((state (n + 1)).cardsIn id) := by
  intro state
  have corrected := redeliver_corrected policy wellFormed reads inside moves
  induction n with
  | zero =>
    obtain ⟨_, last, raised, visited, report, _, first⟩ := corrected 0
    exact first.restless_of_not_settlesAtOnce wellFormed unsettled
  | succ n before =>
    obtain ⟨awaiting, last, raised, visited, report, _, next⟩ := corrected (n + 1)
    exact (next.restless awaiting.wellFormed before).2

/-- A card has been moved and the event is dispatched again and again. No dispatch fails. If every
card with a `close_issue` rule that was shown above the last card of the column was the only one
shown, and the card that is at the top without it has no such rule either, then only the first
dispatch changes anything. Otherwise every dispatch moves rule cards. -/
theorem moved_card_settles (policy : RetryPolicy) (event : Event) (card : CardId) (s : Store)
    (reachable : s.Reachable) (reads : s.failingReads = 0) (known : (s.card? card).isSome)
    (moves : event.Moves card) :
    let router := ofCatalog policy .builtin
    let state := router.redeliver event s
    ∃ column, card ∈ s.cardsIn column ∧ ∀ n, ∃ report,
      (router.route event).run Store.service (state n) = (.ok (some report), state (n + 1)) ∧
      report.isClean = true ∧
      (0 < n → Store.SettlesAtOnce (s.declaresNamed "close_issue") (s.cardsIn column) →
        report.actions = [] ∧ state (n + 1) = state n) ∧
      (0 < n → ¬ Store.SettlesAtOnce (s.declaresNamed "close_issue") (s.cardsIn column) →
        report.actions ≠ [] ∧ (state (n + 1)).cardsIn column ≠ (state n).cardsIn column) := by
  intro router state
  have wellFormed := reachable.wellFormed
  obtain ⟨column, inside⟩ := (wellFormed.known_iff card).mp known
  refine ⟨column, inside, ?_⟩
  intro n
  obtain ⟨awaiting, last, raised, visited, report, ran, corrected⟩ :=
    redeliver_corrected policy wellFormed reads inside moves n
  refine ⟨report, ran, corrected.clean, ?_, ?_⟩
  · intro later settles
    obtain ⟨m, rfl⟩ := Nat.exists_eq_add_one.mpr later
    obtain ⟨report', ran', _, idle⟩ :=
      redeliver_settled policy wellFormed reads inside moves settles m
    have same := ran.symm.trans ran'
    obtain ⟨answer, reached⟩ := Prod.mk.inj same
    have equal : report = report' := Option.some.inj (Except.ok.inj answer)
    rw [equal]
    exact ⟨idle, reached⟩
  · intro later unsettled
    obtain ⟨m, rfl⟩ := Nat.exists_eq_add_one.mpr later
    have before := redeliver_restless policy wellFormed reads inside moves unsettled m
    exact (corrected.restless awaiting.wellFormed before).1

end Router

/-- A column with a rule above an issue and a note. -/
def finished : Store :=
  [.addBoard (.owner "octo") "Plan", .addColumn ⟨"board-1"⟩ "Done",
    .addEntity ⟨.https, "github.com", "octo", "demo", .issue, 7⟩,
    .appendCard ⟨"column-2"⟩ (.note "- `close_issue`"),
    .appendCard ⟨"column-2"⟩ (.entity ⟨"entity-3"⟩),
    .appendCard ⟨"column-2"⟩ (.note "nothing")].foldl Store.perform .empty

/-- The first dispatch closes the issue and moves the rule to the bottom, and that was all. -/
theorem Router.moved_card_settles_finished :
    let router := ofCatalog .default .builtin
    let state := router.redeliver (.ofMovedCard ⟨"card-5"⟩) finished
    (state 1).cardsIn ⟨"column-2"⟩ = [⟨"card-5"⟩, ⟨"card-6"⟩, ⟨"card-4"⟩] ∧
      (state 1).journal = finished.journal ++
        [.issueClosed ⟨"entity-3"⟩, .cardMoved ⟨"card-4"⟩ ⟨"column-2"⟩ (some ⟨"card-6"⟩)] ∧
      ∀ n, 0 < n → ∃ report,
        (router.route (.ofMovedCard ⟨"card-5"⟩)).run Store.service (state n) =
          (.ok (some report), state (n + 1)) ∧
        report.actions = [] ∧ state (n + 1) = state n := by
  intro router state
  have reachable : finished.Reachable := Store.Reachable.foldl _ _ .empty
  obtain ⟨column, inside, rounds⟩ := moved_card_settles .default (.ofMovedCard ⟨"card-5"⟩)
    ⟨"card-5"⟩ finished reachable (by decide +kernel) (by decide +kernel)
    (Event.moves_ofMovedCard ⟨"card-5"⟩)
  have here : (⟨"card-5"⟩ : CardId) ∈ finished.cardsIn ⟨"column-2"⟩ := by decide +kernel
  have same : column = ⟨"column-2"⟩ := reachable.wellFormed.column_unique inside here
  have settles : Store.SettlesAtOnce (finished.declaresNamed "close_issue")
      (finished.cardsIn ⟨"column-2"⟩) := by decide +kernel
  refine ⟨by decide +kernel, by decide +kernel, ?_⟩
  intro n later
  obtain ⟨report, ran, _, settled, _⟩ := rounds n
  rw [same] at settled
  exact ⟨report, ran, settled later settles⟩

/-- A column with two rules. -/
def rivals : Store :=
  [.addBoard (.owner "octo") "Plan", .addColumn ⟨"board-1"⟩ "Done",
    .appendCard ⟨"column-2"⟩ (.note "- `close_issue`"),
    .appendCard ⟨"column-2"⟩ (.note "- `close_issue`")].foldl Store.perform .empty

/-- Each of the two rules is put behind the other one in turn, so a second dispatch moves a card. -/
theorem Router.moved_card_rivals :
    ¬ ∀ (policy : RetryPolicy) (event : Event) (card : CardId) (s : Store), s.Reachable →
      s.failingReads = 0 → (s.card? card).isSome → event.Moves card →
      let dispatch := (ofCatalog policy .builtin).route event
      let first := dispatch.run Store.service s
      let second := dispatch.run Store.service first.2
      ∃ report, second.1 = .ok (some report) ∧ report.actions = [] ∧
        second.2.columns = first.2.columns := by
  intro always
  obtain ⟨_, _, _, columns⟩ := always .default (.ofMovedCard ⟨"card-3"⟩) ⟨"card-3"⟩ rivals
    (Store.Reachable.foldl _ _ .empty) (by decide +kernel) (by decide +kernel)
    (Event.moves_ofMovedCard ⟨"card-3"⟩)
  revert columns
  decide +kernel

end BoardRules
