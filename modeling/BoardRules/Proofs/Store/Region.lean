import BoardRules.Proofs.Store.Frame

/-!
# Regions

Two stores may differ on some boards and be the same on the others. Cards that lie on boards of the
second kind are read and moved alike in both, and that changes nothing on boards of the first kind. So
what is done on some boards neither sees nor disturbs what is done on others.
-/
namespace BoardRules

namespace Store

/-- Two stores that differ in nothing but their journals and the contents of other boards. -/
structure SameOn (on : BoardId → Prop) (s t : Store) : Prop where
  wellFormed : s.WellFormed
  wellFormed' : t.WellFormed
  layout : t.layout = s.layout
  cards : t.cards = s.cards
  entities : t.entities = s.entities
  reviews : t.reviews = s.reviews
  failingReads : t.failingReads = s.failingReads
  lastId : t.lastId = s.lastId
  contents : ∀ board id, on board → (board, id) ∈ s.hosts → t.cardsIn id = s.cardsIn id

/-- A card that lies on one of the boards. -/
def Inside (s : Store) (on : BoardId → Prop) (card : CardId) : Prop :=
  ∃ board id, on board ∧ (board, id, card) ∈ s.places

/-- A column of one of the boards. -/
def Covers (s : Store) (on : BoardId → Prop) (id : ColumnId) : Prop :=
  ∃ board, on board ∧ (board, id) ∈ s.hosts

/-- The cards of the entity lie on these boards only. -/
def Home (s : Store) (on : BoardId → Prop) (target : Target) : Prop :=
  ∀ board id card, (board, id, card) ∈ s.places → s.owns target card = true → on board

/-! ## Hosts -/

namespace WellFormed

variable {s : Store}

theorem column?_of_host (wellFormed : s.WellFormed) {board : BoardId} {id : ColumnId}
    (host : (board, id) ∈ s.hosts) :
    ∃ column, s.column? id = some column ∧ column.cards = s.cardsIn id := by
  rw [s.hosts_eq] at host
  obtain ⟨stored, listed, here⟩ := List.mem_flatMap.mp host
  obtain ⟨column, inside, same⟩ := List.mem_map.mp here
  cases same
  have member : column ∈ s.columns := List.mem_flatMap.mpr ⟨stored, listed, inside⟩
  exact ⟨column, wellFormed.column?_eq member, (wellFormed.cardsIn_eq member).symm⟩

/-- A column is on one board only. -/
theorem host_unique (wellFormed : s.WellFormed) {one other : BoardId} {id : ColumnId}
    (first : (one, id) ∈ s.hosts) (second : (other, id) ∈ s.hosts) : one = other := by
  have ids : s.hosts.map Prod.snd = s.columns.map (·.id) := by
    rw [s.hosts_eq, Store.columns]
    simp [List.map_flatMap, Function.comp_def]
  have unique : (s.hosts.map Prod.snd).Nodup := by
    rw [ids]
    exact wellFormed.columnIds
  exact congrArg Prod.fst (List.inj_on_of_nodup_map unique first second rfl)

/-- What a card or a column lies on is on no other board. -/
theorem not_inside (wellFormed : s.WellFormed) {on : BoardId → Prop} {card : CardId}
    (inside : s.Inside on card) {board : BoardId} {id : ColumnId} (off : ¬ on board)
    (host : (board, id) ∈ s.hosts) : card ∉ s.cardsIn id := by
  intro member
  obtain ⟨here, there, covered, place⟩ := inside
  have same := wellFormed.place_unique place (wellFormed.mem_places.mpr ⟨host, member⟩)
  exact off (same.1 ▸ covered)

theorem not_covers (wellFormed : s.WellFormed) {on : BoardId → Prop} {id : ColumnId}
    (covered : s.Covers on id) {board : BoardId} {other : ColumnId} (off : ¬ on board)
    (host : (board, other) ∈ s.hosts) : other ≠ id := by
  rintro rfl
  obtain ⟨here, inside, there⟩ := covered
  exact off (wellFormed.host_unique there host ▸ inside)

end WellFormed

/-! ## Stores that are the same on some boards -/

namespace SameOn

variable {on : BoardId → Prop} {s t u : Store}

theorem refl (wellFormed : s.WellFormed) (on : BoardId → Prop) : SameOn on s s :=
  ⟨wellFormed, wellFormed, rfl, rfl, rfl, rfl, rfl, rfl, fun _ _ _ _ => rfl⟩

theorem hosts_eq (same : SameOn on s t) : t.hosts = s.hosts := by
  unfold hosts
  rw [same.layout]

theorem symm (same : SameOn on s t) : SameOn on t s where
  wellFormed := same.wellFormed'
  wellFormed' := same.wellFormed
  layout := same.layout.symm
  cards := same.cards.symm
  entities := same.entities.symm
  reviews := same.reviews.symm
  failingReads := same.failingReads.symm
  lastId := same.lastId.symm
  contents board id inside host :=
    (same.contents board id inside (same.hosts_eq ▸ host)).symm

theorem trans (first : SameOn on s t) (second : SameOn on t u) : SameOn on s u where
  wellFormed := first.wellFormed
  wellFormed' := second.wellFormed'
  layout := second.layout.trans first.layout
  cards := second.cards.trans first.cards
  entities := second.entities.trans first.entities
  reviews := second.reviews.trans first.reviews
  failingReads := second.failingReads.trans first.failingReads
  lastId := second.lastId.trans first.lastId
  contents board id inside host :=
    (second.contents board id inside (first.hosts_eq.symm ▸ host)).trans
      (first.contents board id inside host)

theorem mono {fewer : BoardId → Prop} (same : SameOn on s t) (within : ∀ board, fewer board → on board) :
    SameOn fewer s t :=
  { same with contents := fun board id inside => same.contents board id (within board inside) }

theorem fillBoard_eq (same : SameOn on s t) {board : StoredBoard} (listed : board ∈ s.layout)
    (inside : on board.id) : fillBoard t.cardsIn board = fillBoard s.cardsIn board := by
  have columns : board.columns.map (fill t.cardsIn) = board.columns.map (fill s.cardsIn) := by
    apply List.map_congr_left
    intro column member
    have host : (board.id, column.id) ∈ s.hosts :=
      List.mem_flatMap.mpr ⟨board, listed, List.mem_map_of_mem member⟩
    unfold fill
    rw [same.contents board.id column.id inside host]
  unfold fillBoard
  rw [columns]

/-- Stores that are the same on some boards and on all others have the same boards. -/
theorem boards_eq (same : SameOn on s t) (others : SameOn (fun board => ¬ on board) s t) :
    t.boards = s.boards := by
  rw [same.wellFormed'.boards_eq, same.wellFormed.boards_eq, same.layout]
  apply List.map_congr_left
  intro board listed
  by_cases inside : on board.id
  · exact same.fillBoard_eq listed inside
  · exact others.fillBoard_eq listed inside

/-- They differ in nothing but their journals. -/
theorem eq_of_others (same : SameOn on s t) (others : SameOn (fun board => ¬ on board) s t) :
    t = { s with journal := t.journal } := by
  have boards := same.boards_eq others
  obtain ⟨_, _, _, cards, entities, reviews, failingReads, lastId, _⟩ := same
  cases s
  cases t
  simp_all

/-! ### What a card stands for -/

theorem card?_eq (same : SameOn on s t) : t.card? = s.card? := by
  unfold card?
  rw [same.cards]

theorem owns_eq (same : SameOn on s t) : t.owns = s.owns := by
  unfold owns entity? isCardOf
  rw [same.entities, same.card?_eq]

theorem entity_eq (same : SameOn on s t) : t.entity = s.entity := by
  unfold entity entity?
  rw [same.entities]

theorem membershipsOn_eq (same : SameOn on s t) : t.membershipsOn = s.membershipsOn := by
  unfold membershipsOn isCardOf boardView columnView cardView cardNote?
  rw [same.card?_eq]

theorem reviewsOf_eq (same : SameOn on s t) : t.reviewsOf = s.reviewsOf := by
  unfold reviewsOf
  rw [same.reviews]

/-! ### Where cards are -/

theorem inside (same : SameOn on s t) {card : CardId} (inside : s.Inside on card) :
    t.Inside on card := by
  obtain ⟨board, id, covered, place⟩ := inside
  obtain ⟨host, member⟩ := same.wellFormed.mem_places.mp place
  refine ⟨board, id, covered, same.wellFormed'.mem_places.mpr ⟨same.hosts_eq ▸ host, ?_⟩⟩
  rw [same.contents board id covered host]
  exact member

/-- A card cannot leave boards while all others stay the same. -/
theorem stays (others : SameOn (fun board => ¬ on board) s t) {card : CardId}
    (inside : s.Inside on card) : t.Inside on card := by
  obtain ⟨board, id, covered, place⟩ := inside
  have known : (t.card? card).isSome := by
    rw [others.card?_eq]
    exact others.wellFormed.known_place place
  obtain ⟨board', id', place'⟩ := others.wellFormed'.place_of_known known
  obtain ⟨host, member⟩ := others.wellFormed'.mem_places.mp place'
  rw [others.hosts_eq] at host
  refine ⟨board', id', ?_, place'⟩
  by_contra off
  rw [others.contents board' id' off host] at member
  exact others.wellFormed.not_inside ⟨board, id, covered, place⟩ off host member

theorem covers {any : BoardId → Prop} (same : SameOn any s t) {id : ColumnId}
    (covered : s.Covers on id) : t.Covers on id := by
  unfold Covers
  rw [same.hosts_eq]
  exact covered

/-- The boards of an entity are found by where its cards are. -/
theorem home {any : BoardId → Prop} (same : SameOn any s t) {target : Target}
    (moved : ∀ card, s.Inside on card → t.Inside on card) (home : s.Home on target) :
    t.Home on target := by
  intro board id card place own
  have known := same.wellFormed'.known_place place
  rw [same.card?_eq] at known
  rw [same.owns_eq] at own
  obtain ⟨board', id', place'⟩ := same.wellFormed.place_of_known known
  obtain ⟨board'', id'', covered, place''⟩ :=
    moved card ⟨board', id', home board' id' card place' own, place'⟩
  exact (same.wellFormed'.place_unique place'' place).1 ▸ covered

end SameOn

/-! ## Reads -/

/-- On boards that are no home of an entity it has no cards. -/
theorem WellFormed.membershipsOn_off {s : Store} (wellFormed : s.WellFormed) {on : BoardId → Prop}
    {url : EntityUrl} (home : s.Home on (.entity url)) {entity : StoredEntity}
    (known : s.entity url = .ok entity) {board : StoredBoard} (listed : board ∈ s.layout)
    (off : ¬ on board.id) : s.membershipsOn entity.id (fillBoard s.cardsIn board) = [] := by
  refine List.flatMap_eq_nil_iff.mpr fun column member => ?_
  obtain ⟨empty, there, rfl⟩ := List.mem_map.mp member
  refine List.map_eq_nil_iff.mpr (List.filter_eq_nil_iff.mpr fun card inside belongs => off ?_)
  have host : (board.id, empty.id) ∈ s.hosts :=
    List.mem_flatMap.mpr ⟨board, listed, List.mem_map_of_mem there⟩
  have own : s.owns (.entity url) card = true :=
    owns_entity.mpr ⟨entity, entity?_of_ok known, belongs⟩
  exact home board.id empty.id card (wellFormed.mem_places.mpr ⟨host, inside⟩) own

/-- The cards of an entity are read alike if all of them lie where the stores are the same. -/
theorem SameOn.cardMemberships_eq {on : BoardId → Prop} {s t : Store} (same : SameOn on s t)
    {url : EntityUrl} (home : s.Home on (.entity url)) :
    cardMemberships url t = cardMemberships url s := by
  have home' : t.Home on (.entity url) := same.home (fun _ => same.inside) home
  unfold cardMemberships
  rw [same.entity_eq]
  cases known : s.entity url with
  | error error => simp only [bind, Except.bind]
  | ok entity =>
    have known' : t.entity url = .ok entity := by rw [same.entity_eq, known]
    have memberships : t.boards.flatMap (t.membershipsOn entity.id) =
        s.boards.flatMap (s.membershipsOn entity.id) := by
      rw [same.wellFormed'.boards_eq, same.wellFormed.boards_eq, List.flatMap_map,
        List.flatMap_map, same.layout]
      refine List.flatMap_congr fun board listed => ?_
      by_cases inside : on board.id
      · rw [same.fillBoard_eq listed inside, same.membershipsOn_eq]
      · rw [same.wellFormed.membershipsOn_off home known listed inside,
          same.wellFormed'.membershipsOn_off home' known' (same.layout ▸ listed) inside]
    simp only [bind, Except.bind, memberships]

/-! ## Moves -/

theorem moveCard_refused {s : Store} {card : CardId} {column : ColumnId} {after : Option CardId}
    {stored : StoredCard} {target : StoredColumn} (known : s.card? card = some stored)
    (there : s.column? column = some target)
    (refused : insertAt card after (target.cards.filter (· ≠ card)) = none) :
    s.moveCard card column after = (.error (.query ("card " ++ (after.map (·.text)).getD "" ++
      " is not in column " ++ column.text)), s) := by
  unfold moveCard
  simp only [known, there, refused]

/-- To move a card on some boards changes nothing on others. -/
theorem WellFormed.moveCard_confined {s : Store} (wellFormed : s.WellFormed) {on : BoardId → Prop}
    {card : CardId} {column : ColumnId} (inside : s.Inside on card) (covered : s.Covers on column)
    (after : Option CardId) :
    SameOn (fun board => ¬ on board) s (s.moveCard card column after).2 := by
  have wellFormed' := wellFormed.moveCard card column after
  rcases result : s.moveCard card column after with ⟨error | _, s'⟩ <;> rw [result] at wellFormed'
  · rw [moveCard_error result]
    exact .refl wellFormed _
  · obtain ⟨cards, _, contents, layout, whole⟩ := moveCard_ok result
    refine ⟨wellFormed, wellFormed', layout, by rw [whole], by rw [whole], by rw [whole],
      by rw [whole], by rw [whole], ?_⟩
    intro board id off host
    have absent := wellFormed.not_inside inside off host
    change s'.cardsIn id = s.cardsIn id
    rw [contents, if_neg (wellFormed.not_covers covered off host)]
    refine List.filter_eq_self.mpr fun other member => ?_
    simpa using ne_of_mem_of_not_mem member absent

/-- What the same calls do to two stores that are the same on some boards, when they have to do with
these boards alone. -/
structure Parallel (on : BoardId → Prop) (s t s' t' : Store) : Prop where
  same : SameOn on s' t'
  confined : SameOn (fun board => ¬ on board) s s'
  confined' : SameOn (fun board => ¬ on board) t t'
  noted : ∃ moves, s'.journal = s.journal ++ moves ∧ t'.journal = t.journal ++ moves

namespace Parallel

variable {on : BoardId → Prop} {s t s' t' s'' t'' : Store}

theorem refl (same : SameOn on s t) : Parallel on s t s t :=
  ⟨same, .refl same.wellFormed _, .refl same.wellFormed' _, [], by simp⟩

theorem trans (first : Parallel on s t s' t') (second : Parallel on s' t' s'' t'') :
    Parallel on s t s'' t'' := by
  obtain ⟨moves, noted, noted'⟩ := first.noted
  obtain ⟨others, added, added'⟩ := second.noted
  refine ⟨second.same, first.confined.trans second.confined,
    first.confined'.trans second.confined', moves ++ others, ?_, ?_⟩
  · rw [added, noted, List.append_assoc]
  · rw [added', noted', List.append_assoc]

end Parallel

/-- A card is moved alike on boards where the stores are the same. -/
theorem SameOn.moveCard {on : BoardId → Prop} {s t : Store} (same : SameOn on s t) {card : CardId}
    {column : ColumnId} (inside : s.Inside on card) (covered : s.Covers on column)
    (after : Option CardId) :
    (t.moveCard card column after).1 = (s.moveCard card column after).1 ∧
      Parallel on s t (s.moveCard card column after).2 (t.moveCard card column after).2 := by
  have confined := same.wellFormed.moveCard_confined inside covered after
  have confined' := same.wellFormed'.moveCard_confined (same.inside inside)
    (same.covers covered) after
  obtain ⟨stored, known⟩ : ∃ stored, s.card? card = some stored := by
    obtain ⟨_, _, _, place⟩ := inside
    exact Option.isSome_iff_exists.mp (same.wellFormed.known_place place)
  have known' : t.card? card = some stored := by rw [same.card?_eq, known]
  obtain ⟨board, on_board, host⟩ := covered
  obtain ⟨target, there, cards⟩ := same.wellFormed.column?_of_host host
  obtain ⟨target', there', cards'⟩ :=
    same.wellFormed'.column?_of_host (same.hosts_eq.symm ▸ host)
  have contents := same.contents board column on_board host
  have equal : target'.cards = target.cards := by rw [cards', contents, cards]
  cases inserted : insertAt card after (target.cards.filter (· ≠ card)) with
  | none =>
    rw [moveCard_refused known there inserted,
      moveCard_refused known' there' (by rw [equal]; exact inserted)]
    exact ⟨rfl, .refl same⟩
  | some placed =>
    have inserted' : insertAt card after (target'.cards.filter (· ≠ card)) = some placed := by
      rw [equal]
      exact inserted
    rw [cards] at inserted
    rw [cards'] at inserted'
    obtain ⟨s', success, _, whole⟩ := moveCard_of_insertAt (by rw [known]; rfl) there inserted
    obtain ⟨t', success', _, whole'⟩ := moveCard_of_insertAt (by rw [known']; rfl) there' inserted'
    obtain ⟨_, once, moved, _⟩ := moveCard_ok success
    obtain ⟨_, once', moved', _⟩ := moveCard_ok success'
    obtain rfl := Option.some.inj (once.symm.trans inserted)
    obtain rfl := Option.some.inj (once'.symm.trans inserted')
    rw [success] at confined ⊢
    rw [success'] at confined' ⊢
    -- Apart from contents, both stores are as before.
    have frame : SameOn (fun _ => False) s' t' :=
      ((confined.symm.mono fun _ => False.elim).trans (same.mono fun _ => False.elim)).trans
        (confined'.mono fun _ => False.elim)
    refine ⟨rfl, { frame with contents := ?_ }, confined, confined', [.cardMoved card column after],
      by rw [whole], by rw [whole']⟩
    intro other id on_other host'
    rw [confined.hosts_eq] at host'
    rw [moved, moved', same.contents other id on_other host']

end Store

end BoardRules
