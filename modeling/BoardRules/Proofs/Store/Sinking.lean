import BoardRules.Proofs.Store.Views

/-!
# Sinking cards

What it does to a column to put some of its cards behind its last card, one after the other. The
card that sinks first ends at the very bottom.
-/
namespace BoardRules.Store

/-- Puts a card behind the last one. -/
def sink (last : CardId) (cards : List CardId) (card : CardId) : List CardId :=
  (insertBehind card last (cards.filter (· ≠ card))).getD cards

theorem insertBehind_sink {last card : CardId} {cards : List CardId} (there : last ∈ cards)
    (different : card ≠ last) :
    insertBehind card last (cards.filter (· ≠ card)) = some (sink last cards card) := by
  have remains : last ∈ cards.filter (· ≠ card) :=
    List.mem_filter.mpr ⟨there, by simpa using different.symm⟩
  have inserted : (insertBehind card last (cards.filter (· ≠ card))).isSome := by
    generalize cards.filter (· ≠ card) = rest at remains
    induction rest with
    | nil => cases remains
    | cons c rest others =>
      unfold insertBehind
      by_cases here : c = last
      · rw [if_pos here]
        rfl
      · have later : last ∈ rest := by
          rcases List.mem_cons.mp remains with same | later
          · exact absurd same.symm here
          · exact later
        rw [if_neg here, Option.isSome_map]
        exact others later
  obtain ⟨placed, found⟩ := Option.isSome_iff_exists.mp inserted
  unfold sink
  rw [found]
  rfl

theorem sink_perm {last card : CardId} {cards : List CardId} (nodup : cards.Nodup)
    (there : last ∈ cards) (member : card ∈ cards) (different : card ≠ last) :
    (sink last cards card).Perm cards :=
  (insertBehind_perm (insertBehind_sink there different)).trans (cons_filter_ne_perm nodup member)

/-- The last card stays where it is, and the card comes right behind it. -/
theorem sink_append {last card : CardId} {above below : List CardId}
    (nodup : (above ++ last :: below).Nodup) (different : card ≠ last) :
    sink last (above ++ last :: below) card =
      above.filter (· ≠ card) ++ last :: card :: below.filter (· ≠ card) := by
  have higher : last ∉ above.filter (· ≠ card) := by
    intro member
    have apart := (List.nodup_append.mp nodup).2.2
    exact apart last (List.mem_of_mem_filter member) last List.mem_cons_self rfl
  have without : (above ++ last :: below).filter (· ≠ card) =
      above.filter (· ≠ card) ++ last :: below.filter (· ≠ card) := by
    rw [List.filter_append, List.filter_cons_of_pos (by simpa using different.symm)]
  unfold sink
  rw [without, insertBehind_append higher]
  rfl

/-- A card of a column can always be put behind another card of it. -/
theorem WellFormed.moveCard_sink {s : Store} (wellFormed : s.WellFormed) {id : ColumnId}
    {last card : CardId} (there : last ∈ s.cardsIn id) (member : card ∈ s.cardsIn id)
    (different : card ≠ last) :
    ∃ s', s.moveCard card id (some last) = (.ok (), s') ∧
      s'.cardsIn id = sink last (s.cardsIn id) card ∧
      s' = { s with
        boards := s'.boards
        journal := s.journal ++ [.cardMoved card id (some last)] } := by
  obtain ⟨_, column, _⟩ := column?_of_mem member
  exact moveCard_of_insertAt ((wellFormed.known_iff card).mpr ⟨id, member⟩) column
    (insertBehind_sink there different)

/-- A card that has just sunk stays where it is. -/
theorem sink_sink {last card : CardId} {cards : List CardId} (nodup : cards.Nodup)
    (there : last ∈ cards) (member : card ∈ cards) (different : card ≠ last) :
    sink last (sink last cards card) card = sink last cards card := by
  have nodup' := (sink_perm nodup there member different).nodup_iff.mpr nodup
  obtain ⟨above, below, rfl⟩ := List.append_of_mem there
  rw [sink_append nodup different] at nodup' ⊢
  rw [sink_append nodup' different, List.filter_cons_of_neg (by simp), List.filter_filter,
    List.filter_filter]
  simp only [Bool.and_self]

/-- Cards from above sink in their order, so they end in the opposite one. -/
theorem foldl_sink {last : CardId} (cards : List CardId) (distinct : cards.Nodup)
    {above below : List CardId} (nodup : (above ++ last :: below).Nodup)
    (higher : ∀ card ∈ cards, card ∈ above) :
    cards.foldl (sink last) (above ++ last :: below) =
      above.filter (· ∉ cards) ++ last :: (cards.reverse ++ below) := by
  induction cards generalizing above below with
  | nil => simp
  | cons card cards others =>
    obtain ⟨single, rest⟩ := List.nodup_cons.mp distinct
    have member : card ∈ above := higher card List.mem_cons_self
    have apart := (List.nodup_append.mp nodup).2.2 card member
    have different : card ≠ last := apart last List.mem_cons_self
    have stays : below.filter (· ≠ card) = below := by
      apply List.filter_eq_self.mpr
      intro other lower
      have unequal : other ≠ card := (apart other (List.mem_cons_of_mem _ lower)).symm
      simpa using unequal
    have nodup' := (sink_perm nodup (by simp) (List.mem_append_left _ member) different).nodup_iff.mpr
      nodup
    rw [sink_append nodup different, stays] at nodup'
    rw [List.foldl_cons, sink_append nodup different, stays, others rest nodup' ?_]
    · rw [List.filter_filter, List.reverse_cons, List.append_assoc, List.singleton_append]
      congr 1
      apply List.filter_congr
      intro other _
      simp [Bool.and_comm]
    · intro other later
      refine List.mem_filter.mpr ⟨higher other (List.mem_cons_of_mem _ later), ?_⟩
      have unequal : other ≠ card := by
        intro same
        subst same
        exact single later
      simpa using unequal

/-- A card that sinks several times in a row might as well sink once. -/
theorem foldl_sink_replicate {last card : CardId} {cards : List CardId} (nodup : cards.Nodup)
    (there : last ∈ cards) (member : card ∈ cards) (different : card ≠ last) (n : Nat) :
    (List.replicate (n + 1) card).foldl (sink last) cards = sink last cards card := by
  induction n with
  | zero => rfl
  | succ n others =>
    rw [List.replicate_succ', List.foldl_append, others]
    exact sink_sink nodup there member different

/-- Cards that sink several times in a row, of those in the column. -/
theorem foldl_sink_copies {last : CardId} (copies : CardId → Nat) (ids : List CardId)
    {cards : List CardId} (nodup : cards.Nodup) (there : last ∈ cards)
    (members : ∀ card ∈ ids, card ∈ cards) :
    ((ids.flatMap fun card => List.replicate (copies card) card).filter (· ≠ last)).foldl
        (sink last) cards =
      ((ids.filter fun card => 0 < copies card).filter (· ≠ last)).foldl (sink last) cards := by
  induction ids generalizing cards with
  | nil => rfl
  | cons card ids others =>
    have later : ∀ other ∈ ids, other ∈ cards :=
      fun other member => members other (List.mem_cons_of_mem _ member)
    rw [List.flatMap_cons, List.filter_append, List.foldl_append]
    by_cases present : 0 < copies card
    · rw [List.filter_cons_of_pos (by simpa using present)]
      by_cases same : card = last
      · have none : (List.replicate (copies card) card).filter (· ≠ last) = [] := by simp [same]
        rw [none, List.filter_cons_of_neg (by simpa using same)]
        exact others nodup there later
      · have all : (List.replicate (copies card) card).filter (· ≠ last) =
            List.replicate (copies card - 1 + 1) card := by
          rw [Nat.sub_add_cancel present]
          exact List.filter_replicate_of_pos (by simpa using same)
        have member := members card List.mem_cons_self
        have sinks := sink_perm nodup there member same
        rw [all, foldl_sink_replicate nodup there member same,
          List.filter_cons_of_pos (by simpa using same), List.foldl_cons]
        exact others (sinks.nodup_iff.mpr nodup) (sinks.mem_iff.mpr there)
          fun other inside => sinks.mem_iff.mpr (later other inside)
    · have absent : copies card = 0 := by omega
      rw [List.filter_cons_of_neg (by simpa using present), absent]
      exact others nodup there later

/-! ## Marked cards that sink -/

/-- Every marked card that is shown is the last one. -/
def Settled (marked : CardId → Bool) (cards : List CardId) : Prop :=
  ∀ card ∈ windowOf cards, marked card = true → cards.getLast? = some card

/-- A marked card that is shown above the last one is the only marked card that is shown, and the
card that is at the top without it is not marked either. -/
def SettlesAtOnce (marked : CardId → Bool) (cards : List CardId) : Prop :=
  ∀ card ∈ windowOf cards, marked card = true → cards.getLast? ≠ some card →
    (∀ other ∈ windowOf cards, other ≠ card → marked other = false) ∧
      ∀ top ∈ (cards.filter (· ≠ card)).head?, marked top = false

instance (marked : CardId → Bool) (cards : List CardId) : Decidable (SettlesAtOnce marked cards) :=
  inferInstanceAs (Decidable (∀ card ∈ windowOf cards, _))

/-- The marked cards that are shown above the last one. -/
structure Raised (marked : CardId → Bool) (cards raised : List CardId) : Prop where
  nodup : raised.Nodup
  iff : ∀ card, card ∈ raised ↔
    card ∈ windowOf cards ∧ marked card = true ∧ cards.getLast? ≠ some card

theorem Raised.different {marked : CardId → Bool} {cards rest : List CardId} {one other : CardId}
    (exactly : Raised marked cards (one :: other :: rest)) : other ≠ one := by
  intro same
  have single := (List.nodup_cons.mp exactly.nodup).1
  rw [same] at single
  exact single List.mem_cons_self

theorem settled_iff_raised {marked : CardId → Bool} {cards raised : List CardId}
    (exactly : Raised marked cards raised) : Settled marked cards ↔ raised = [] := by
  constructor
  · intro settled
    apply List.eq_nil_iff_forall_not_mem.mpr
    intro card member
    obtain ⟨shown, mark, lifted⟩ := (exactly.iff card).mp member
    exact lifted (settled card shown mark)
  · intro same card shown mark
    subst same
    by_contra lifted
    cases (exactly.iff card).mpr ⟨shown, mark, lifted⟩

theorem windowOf_append_pair (cards : List CardId) (one other : CardId) :
    windowOf (cards ++ [one, other]) = (cards ++ [one, other]).take 1 ++ [one, other] := by
  unfold windowOf leadingWindow trailingWindow
  congr 1
  rw [List.length_append]
  exact List.drop_left

/-- If two cards sink, the second one comes to lie right above the first one. -/
theorem not_settled_of_two {marked : CardId → Bool} {above below : List CardId} {one other : CardId}
    (mark : marked one = true) (different : one ≠ other) :
    ¬ Settled marked (above ++ (below ++ [one, other])) := by
  intro settled
  rw [← List.append_assoc] at settled
  have shown : one ∈ windowOf ((above ++ below) ++ [one, other]) := by
    rw [windowOf_append_pair]
    exact List.mem_append_right _ List.mem_cons_self
  have last := settled one shown mark
  have same : other = one := by simpa using last
  exact different same.symm

/-- If one card sinks, the old last card comes to be shown, and so does a new top card. -/
theorem settled_of_one {marked : CardId → Bool} {above : List CardId} {last card : CardId}
    (nodup : (above ++ [last, card]).Nodup) :
    Settled marked (above ++ [last, card]) ↔
      marked last = false ∧ ∀ top ∈ (above ++ [last]).head?, marked top = false := by
  have final : (above ++ [last, card]).getLast? = some card := by simp
  have window := windowOf_append_pair above last card
  obtain ⟨_, pair, apart⟩ := List.nodup_append.mp nodup
  have different : last ≠ card := by simpa using pair
  constructor
  · intro settled
    have lifted : ∀ other ∈ windowOf (above ++ [last, card]), other ≠ card →
        marked other = false := by
      intro other shown unequal
      by_contra mark
      have lowest := settled other shown (by simpa using mark)
      rw [final] at lowest
      exact unequal (Option.some.inj lowest).symm
    have unmarked : marked last = false := by
      refine lifted last ?_ different
      rw [window]
      exact List.mem_append_right _ List.mem_cons_self
    refine ⟨unmarked, ?_⟩
    intro top highest
    cases above with
    | nil =>
      cases highest
      exact unmarked
    | cons first above =>
      cases highest
      refine lifted top ?_ (apart top List.mem_cons_self card (by simp))
      rw [window]
      exact List.mem_append_left _ List.mem_cons_self
  · intro found other shown mark
    obtain ⟨unmarked, topless⟩ := found
    rw [final]
    rw [window] at shown
    rcases List.mem_append.mp shown with highest | low
    · have top : marked other = false := by
        cases above with
        | nil =>
          have same : other = last := by simpa using highest
          rw [same]
          exact unmarked
        | cons first above =>
          have same : other = first := by simpa using highest
          rw [same]
          exact topless first rfl
      rw [top] at mark
      cases mark
    · rcases List.mem_cons.mp low with rfl | lowest
      · rw [unmarked] at mark
        cases mark
      · rw [List.mem_singleton.mp lowest]

theorem raised_higher {marked : CardId → Bool} {above raised : List CardId} {last : CardId}
    (exactly : Raised marked (above ++ [last]) raised) : ∀ card ∈ raised, card ∈ above := by
  intro card member
  obtain ⟨shown, _, lifted⟩ := (exactly.iff card).mp member
  rcases List.mem_append.mp (mem_of_mem_windowOf shown) with inside | lowest
  · exact inside
  · rw [List.mem_singleton.mp lowest] at lifted
    exact absurd (by simp) lifted

/-- The column after all raised cards have sunk. -/
theorem foldl_sink_raised {marked : CardId → Bool} {above raised : List CardId} {last : CardId}
    (nodup : (above ++ [last]).Nodup) (exactly : Raised marked (above ++ [last]) raised) :
    raised.foldl (sink last) (above ++ [last]) =
      above.filter (· ∉ raised) ++ last :: raised.reverse := by
  have sunk := foldl_sink raised exactly.nodup nodup (raised_higher exactly)
  rw [List.append_nil] at sunk
  exact sunk

/-- Whenever a card sinks there is another card at the bottom. -/
theorem foldl_sink_ne {marked : CardId → Bool} {above raised : List CardId} {last : CardId}
    (nodup : (above ++ [last]).Nodup) (exactly : Raised marked (above ++ [last]) raised)
    (nonempty : raised ≠ []) : raised.foldl (sink last) (above ++ [last]) ≠ above ++ [last] := by
  intro same
  rw [foldl_sink_raised nodup exactly] at same
  obtain ⟨card, rest, rfl⟩ := List.exists_cons_of_ne_nil nonempty
  rw [List.reverse_cons, ← List.cons_append, ← List.append_assoc] at same
  have bottom := congrArg List.getLast? same
  rw [List.getLast?_concat, List.getLast?_concat] at bottom
  have equal : card = last := Option.some.inj bottom
  have member := raised_higher exactly card List.mem_cons_self
  have apart := (List.nodup_append.mp nodup).2.2 card member last List.mem_cons_self
  exact apart equal

theorem settled_sink_one {marked : CardId → Bool} {above : List CardId} {last card : CardId}
    (nodup : (above ++ [last]).Nodup) (exactly : Raised marked (above ++ [last]) [card]) :
    Settled marked ([card].foldl (sink last) (above ++ [last])) ↔
      SettlesAtOnce marked (above ++ [last]) := by
  have final : (above ++ [last]).getLast? = some last := by simp
  have higher := raised_higher exactly card List.mem_cons_self
  obtain ⟨shown, mark, lifted⟩ := (exactly.iff card).mp List.mem_cons_self
  have different : last ≠ card := by
    intro same
    subst same
    exact lifted final
  have sunk : [card].foldl (sink last) (above ++ [last]) =
      above.filter (· ∉ [card]) ++ [last, card] := foldl_sink_raised nodup exactly
  have without : above.filter (· ∉ [card]) ++ [last] = (above ++ [last]).filter (· ≠ card) := by
    rw [List.filter_append, List.filter_cons_of_pos (by simpa using different)]
    simp
  have nodup' : (above.filter (· ∉ [card]) ++ [last, card]).Nodup := by
    rw [← sunk]
    exact (sink_perm nodup (by simp) (List.mem_append_left _ higher) different.symm).nodup_iff.mpr nodup
  have lowest : last ∈ windowOf (above ++ [last]) :=
    mem_windowOf_of_suffix (List.suffix_append above [last]) (by simp) List.mem_cons_self
  rw [sunk, settled_of_one nodup', without]
  constructor
  · intro found other shown' mark' lifted'
    obtain ⟨unmarked, topless⟩ := found
    have same : other = card := by
      simpa using (exactly.iff other).mpr ⟨shown', mark', lifted'⟩
    subst same
    refine ⟨?_, topless⟩
    intro another shownToo apart
    by_contra marked'
    by_cases atBottom : another = last
    · rw [atBottom] at marked'
      exact marked' unmarked
    · have raisedToo := (exactly.iff another).mpr
        ⟨shownToo, by simpa using marked', by rw [final]; simpa using Ne.symm atBottom⟩
      exact apart (by simpa using raisedToo)
  · intro settles
    obtain ⟨lonely, topless⟩ := settles card shown mark lifted
    exact ⟨lonely last lowest different, topless⟩

/-- Two cards that sink end below the old last card, the second one right above the first one. -/
theorem not_settled_foldl_sink {marked : CardId → Bool} {above rest : List CardId}
    {last one other : CardId} (nodup : (above ++ [last]).Nodup)
    (exactly : Raised marked (above ++ [last]) (one :: other :: rest)) :
    ¬ Settled marked ((one :: other :: rest).foldl (sink last) (above ++ [last])) := by
  obtain ⟨_, mark, _⟩ := (exactly.iff other).mp (List.mem_cons_of_mem _ List.mem_cons_self)
  have pair : last :: (one :: other :: rest).reverse =
      (last :: rest.reverse) ++ [other, one] := by simp
  rw [foldl_sink_raised nodup exactly, pair]
  exact not_settled_of_two mark exactly.different

/-- After one round the marked cards are where they belong in exactly these cases. -/
theorem settled_foldl_sink {marked : CardId → Bool} {above raised : List CardId} {last : CardId}
    (nodup : (above ++ [last]).Nodup) (exactly : Raised marked (above ++ [last]) raised) :
    Settled marked (raised.foldl (sink last) (above ++ [last])) ↔
      SettlesAtOnce marked (above ++ [last]) := by
  match raised, exactly with
  | [], exactly =>
    have settled := (settled_iff_raised exactly).mpr rfl
    refine ⟨fun _ card shown mark lifted => ?_, fun _ => settled⟩
    exact absurd (settled card shown mark) lifted
  | [card], exactly => exact settled_sink_one nodup exactly
  | one :: other :: rest, exactly =>
    refine ⟨fun settled => absurd settled (not_settled_foldl_sink nodup exactly), ?_⟩
    intro settles
    obtain ⟨shown, mark, lifted⟩ := (exactly.iff one).mp List.mem_cons_self
    obtain ⟨shown', mark', _⟩ := (exactly.iff other).mp (List.mem_cons_of_mem _ List.mem_cons_self)
    have unmarked := (settles one shown mark lifted).1 other shown' exactly.different
    rw [mark'] at unmarked
    cases unmarked

/-! ## Cards that never come to rest -/

/-- The last card is marked, and so is another one that is shown. -/
structure Restless (marked : CardId → Bool) (cards : List CardId) : Prop where
  bottom : ∀ last ∈ cards.getLast?, marked last = true
  unsettled : ¬ Settled marked cards

/-- The first card that sinks comes to be the last one. -/
theorem bottom_foldl_sink {marked : CardId → Bool} {above raised : List CardId} {last : CardId}
    (nodup : (above ++ [last]).Nodup) (exactly : Raised marked (above ++ [last]) raised)
    (nonempty : raised ≠ []) :
    ∀ bottom ∈ (raised.foldl (sink last) (above ++ [last])).getLast?, marked bottom = true := by
  intro bottom lowest
  obtain ⟨card, rest, rfl⟩ := List.exists_cons_of_ne_nil nonempty
  obtain ⟨_, mark, _⟩ := (exactly.iff card).mp List.mem_cons_self
  rw [foldl_sink_raised nodup exactly, List.reverse_cons, ← List.cons_append, ← List.append_assoc,
    List.getLast?_concat] at lowest
  rw [← Option.some.inj lowest]
  exact mark

theorem restless_foldl_sink {marked : CardId → Bool} {above raised : List CardId} {last : CardId}
    (nodup : (above ++ [last]).Nodup) (exactly : Raised marked (above ++ [last]) raised)
    (restless : Restless marked (above ++ [last])) :
    Restless marked (raised.foldl (sink last) (above ++ [last])) := by
  have nonempty : raised ≠ [] := by
    intro none
    exact restless.unsettled ((settled_iff_raised exactly).mpr none)
  refine ⟨bottom_foldl_sink nodup exactly nonempty, ?_⟩
  match raised, exactly, nonempty with
  | [card], exactly, _ =>
    have mark : marked last = true := restless.bottom last (by simp)
    obtain ⟨_, _, lifted⟩ := (exactly.iff card).mp List.mem_cons_self
    have different : last ≠ card := by
      intro same
      subst same
      exact lifted (by simp)
    have pair : last :: [card].reverse = [] ++ [last, card] := rfl
    rw [foldl_sink_raised nodup exactly, pair]
    exact not_settled_of_two mark different
  | one :: other :: rest, exactly, _ => exact not_settled_foldl_sink nodup exactly

/-- A column that does not settle at once is restless after one round. -/
theorem restless_of_not_settlesAtOnce {marked : CardId → Bool} {above raised : List CardId}
    {last : CardId} (nodup : (above ++ [last]).Nodup)
    (exactly : Raised marked (above ++ [last]) raised)
    (unsettled : ¬ SettlesAtOnce marked (above ++ [last])) :
    Restless marked (raised.foldl (sink last) (above ++ [last])) := by
  have nonempty : raised ≠ [] := by
    intro same
    subst same
    exact unsettled ((settled_foldl_sink nodup exactly).mp ((settled_iff_raised exactly).mpr rfl))
  exact ⟨bottom_foldl_sink nodup exactly nonempty, mt (settled_foldl_sink nodup exactly).mp unsettled⟩

end BoardRules.Store
