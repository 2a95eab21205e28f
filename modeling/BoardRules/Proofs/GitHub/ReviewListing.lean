import BoardRules.Proofs.Event.Decoding
import BoardRules.Proofs.GitHub.ReceivedViews
import BoardRules.Proofs.Text.Pieces

/-!
# Listings of reviews

A listing names the state of every review in a text. Whether the reviews accept a pull request depends
only on which states are among them: approval must be, and neither a request for changes nor a pending
review may be (`accepted_by_states`). So neither the order of the entries matters nor how often one comes
again, nor how its state is written, and entries of other states do not matter at all.
-/
namespace BoardRules

open Text

/-! ## Names of states -/

namespace ReviewState

/-- The names of a state in capitals. -/
def names : ReviewState → List String
  | approved => ["APPROVED"]
  | changesRequested => ["CHANGES_REQUESTED", "REQUEST_CHANGES"]
  | pending => ["PENDING"]
  | commented => ["COMMENTED"]
  | dismissed => ["DISMISSED"]

/-- The text is a name of the state in any case, with any blanks around it. -/
def NamedBy (state : ReviewState) (text : String) : Prop :=
  ∃ core, Trimmed text.toList core ∧ String.ofList (core.map Char.toUpper) ∈ state.names

theorem ofName?_eq_some_iff {name : String} {state : ReviewState} :
    ofName? name = some state ↔ name ∈ state.names := by
  constructor
  · intro known
    unfold ofName? at known
    split at known
    all_goals cases known
    all_goals decide
  · intro listed
    cases state with
    | changesRequested =>
      rcases List.mem_pair.mp listed with rfl | rfl
      · rfl
      · rfl
    | _ =>
      obtain rfl := List.mem_singleton.mp listed
      rfl

theorem parse?_eq_some_iff {text : String} {state : ReviewState} :
    parse? text = some state ↔ state.NamedBy text := by
  rw [parse?, ofName?_eq_some_iff]
  constructor
  · intro listed
    exact ⟨_, trimmed_trim _, listed⟩
  · rintro ⟨core, trimmed, listed⟩
    rwa [trim_eq_iff.mpr trimmed]

end ReviewState

/-! ## Counting -/

namespace ReviewSummary

theorem foldl_add (states : List ReviewState) (summary : ReviewSummary) :
    states.foldl add summary =
      ⟨summary.approved + states.count .approved,
        summary.changesRequested + states.count .changesRequested,
        summary.pending + states.count .pending⟩ := by
  induction states generalizing summary with
  | nil => rfl
  | cons state states ih =>
    rw [List.foldl_cons, ih]
    cases state <;> simp [add, Nat.add_assoc, Nat.add_comm 1]

theorem ofReviews_eq (reviews : List Review) :
    ofReviews reviews =
      ⟨(reviews.map (·.state)).count .approved, (reviews.map (·.state)).count .changesRequested,
        (reviews.map (·.state)).count .pending⟩ := by
  have fold := foldl_add (reviews.map (·.state)) empty
  rw [List.foldl_map] at fold
  rw [ofReviews, fold]
  simp [empty]

theorem isAccepted_iff {summary : ReviewSummary} : summary.isAccepted = true ↔
    0 < summary.approved ∧ summary.changesRequested = 0 ∧ summary.pending = 0 := by
  simp [isAccepted, and_assoc, Nat.succ_le_iff]

end ReviewSummary

/-! ## Entries -/

/-- An entry of a listing. Who the reviewer is need not be known. -/
structure ReviewEntry where
  state : String
  reviewer : Option String
  deriving DecidableEq, Repr

namespace ReviewEntry

/-- The review of an entry, absent if its state means nothing here. -/
def review? (entry : ReviewEntry) : Option Review :=
  (ReviewState.parse? entry.state).map (⟨·, entry.reviewer⟩)

def summary (entries : List ReviewEntry) : ReviewSummary :=
  .ofReviews (entries.filterMap review?)

/-- How many entries have the state. -/
def countOf (state : ReviewState) (entries : List ReviewEntry) : Nat :=
  entries.countP fun entry => ReviewState.parse? entry.state = some state

/-- Some entry has the state. -/
def Occurs (state : ReviewState) (entries : List ReviewEntry) : Prop :=
  ∃ entry ∈ entries, ReviewState.parse? entry.state = some state

theorem count_states (state : ReviewState) (entries : List ReviewEntry) :
    ((entries.filterMap review?).map (·.state)).count state = countOf state entries := by
  rw [List.map_filterMap, List.count, List.countP_filterMap]
  refine List.countP_congr fun entry _ => ?_
  rw [review?]
  cases ReviewState.parse? entry.state <;> simp

theorem summary_eq (entries : List ReviewEntry) : summary entries =
    ⟨countOf .approved entries, countOf .changesRequested entries, countOf .pending entries⟩ := by
  rw [summary, ReviewSummary.ofReviews_eq, count_states, count_states, count_states]

theorem countOf_pos_iff {state : ReviewState} {entries : List ReviewEntry} :
    0 < countOf state entries ↔ Occurs state entries := by
  rw [countOf, List.countP_pos_iff]
  simp only [decide_eq_true_eq, Occurs]

theorem countOf_eq_zero_iff {state : ReviewState} {entries : List ReviewEntry} :
    countOf state entries = 0 ↔ ¬Occurs state entries := by
  rw [← countOf_pos_iff, Nat.not_lt, Nat.le_zero]

/-- Approval is among the states, and nothing that stands against it. -/
theorem isAccepted_summary_iff (entries : List ReviewEntry) : (summary entries).isAccepted = true ↔
    Occurs .approved entries ∧ ¬Occurs .changesRequested entries ∧ ¬Occurs .pending entries := by
  rw [ReviewSummary.isAccepted_iff, summary_eq]
  exact and_congr countOf_pos_iff (and_congr countOf_eq_zero_iff countOf_eq_zero_iff)

/-! ## Listings that mean the same -/

/-- The texts are the same up to the blanks around them and the case of ASCII letters. -/
def Respelled (text text' : String) : Prop :=
  ∃ core core', Trimmed text.toList core ∧ Trimmed text'.toList core' ∧
    core.map Char.toUpper = core'.map Char.toUpper

/-- A state that decides nothing, or no state at all. -/
def Idle (text : String) : Prop :=
  ∀ state, ReviewState.parse? text = some state → state = .commented ∨ state = .dismissed

/-- One listing becomes the other when entries change places, come again, are written otherwise or are
added without deciding anything, as often as one likes. -/
inductive Alike : List ReviewEntry → List ReviewEntry → Prop where
  | reordered {entries others : List ReviewEntry} : entries.Perm others → Alike entries others
  | repeated (entry : ReviewEntry) (entries : List ReviewEntry) :
      Alike (entry :: entries) (entry :: entry :: entries)
  | respelled {entry entry' : ReviewEntry} (entries : List ReviewEntry) :
      Respelled entry.state entry'.state → Alike (entry :: entries) (entry' :: entries)
  | inserted {entry : ReviewEntry} (entries : List ReviewEntry) :
      Idle entry.state → Alike entries (entry :: entries)
  | symm {entries others : List ReviewEntry} : Alike entries others → Alike others entries
  | trans {entries others further : List ReviewEntry} :
      Alike entries others → Alike others further → Alike entries further

theorem Respelled.parse?_eq {text text' : String} (respelled : Respelled text text') :
    ReviewState.parse? text = ReviewState.parse? text' := by
  obtain ⟨core, core', trimmed, trimmed', same⟩ := respelled
  rw [ReviewState.parse?, ReviewState.parse?, trim_eq_iff.mpr trimmed, trim_eq_iff.mpr trimmed', same]

theorem Alike.occurs_iff {entries others : List ReviewEntry} (alike : Alike entries others)
    {state : ReviewState} (decides : state ≠ .commented ∧ state ≠ .dismissed) :
    Occurs state entries ↔ Occurs state others := by
  unfold Occurs
  induction alike with
  | reordered perm => exact exists_congr fun entry => and_congr_left fun _ => perm.mem_iff
  | repeated entry entries => simp
  | respelled entries same => rw [List.exists_mem_cons_iff, List.exists_mem_cons_iff, same.parse?_eq]
  | inserted entries idle =>
    rw [List.exists_mem_cons_iff, or_iff_right]
    intro named
    rcases idle state named with same | same
    · exact decides.1 same
    · exact decides.2 same
  | symm _ ih => exact ih.symm
  | trans _ _ first second => exact first.trans second

theorem Alike.isAccepted_eq {entries others : List ReviewEntry} (alike : Alike entries others) :
    (summary others).isAccepted = (summary entries).isAccepted := by
  rw [Bool.eq_iff_iff, isAccepted_summary_iff, isAccepted_summary_iff, alike.occurs_iff (by decide),
    alike.occurs_iff (by decide), alike.occurs_iff (by decide)]

/-! ## Replies -/

open Json

def form (entry : ReviewEntry) : Form :=
  .object [.required "state" Form.text entry.state,
    .possible "user" Payload.User.form (entry.reviewer.map Payload.User.mk)]

theorem reads_review (entry : ReviewEntry) : Reads GitHub.review entry.form entry.review? := by
  have state := Fields.reads_text "state" entry.state
  have user := Fields.reads_possible "user" (careful_record Payload.User.fields) nofun
    fun user (_ : entry.reviewer.map Payload.User.mk = some user) => (Payload.reads_user user).object
  have read := Fields.reads_map (f := fun state (user : Option Payload.User) =>
    (ReviewState.parse? state).map fun state => (⟨state, user.map (·.login)⟩ : Review)) state
  have read := (Fields.reads_seq read user (by simp)).object
  have same : (entry.reviewer.map Payload.User.mk).map (·.login) = entry.reviewer := by
    cases entry.reviewer <;> rfl
  rwa [same] at read

/-- A reply that lists the entries is understood as their reviews. -/
theorem answer_reviews {entries : List ReviewEntry} {response : Response} (pullRequest : Locator)
    (carries : GitHub.Carries response (Form.list form entries)) :
    GitHub.answer (.reviews pullRequest) response = .ok (entries.filterMap review?) := by
  have each : Reads (list GitHub.review) (Form.list form entries) (entries.map review?) :=
    reads_list_map fun entry _ => reads_review entry
  unfold GitHub.answer
  dsimp only
  rw [GitHub.content_of_carries each carries]
  change Except.ok ((entries.map review?).filterMap id) = _
  rw [List.filterMap_map, Function.id_comp]

/-- The reviews of a listing accept exactly if some text says approval and none says a request for
changes or a pending review, where a text says a state by any of its names. The three counts are those
of the texts, and listings that mean the same are accepted alike. -/
theorem accepted_by_states (entries : List ReviewEntry) :
    (∀ pullRequest response, GitHub.Carries response (Form.list form entries) →
      GitHub.answer (.reviews pullRequest) response = .ok (entries.filterMap review?)) ∧
    (∀ text state, ReviewState.parse? text = some state ↔ state.NamedBy text) ∧
    ((summary entries).isAccepted = true ↔
      (∃ entry ∈ entries, ReviewState.parse? entry.state = some .approved) ∧
        ∀ entry ∈ entries, ReviewState.parse? entry.state ≠ some .changesRequested ∧
          ReviewState.parse? entry.state ≠ some .pending) ∧
    summary entries =
      ⟨countOf .approved entries, countOf .changesRequested entries, countOf .pending entries⟩ ∧
    ∀ others, Alike entries others → (summary others).isAccepted = (summary entries).isAccepted := by
  refine ⟨fun pullRequest response => answer_reviews pullRequest,
    fun text state => ReviewState.parse?_eq_some_iff, ?_, summary_eq entries,
    fun others alike => alike.isAccepted_eq⟩
  rw [isAccepted_summary_iff]
  refine and_congr_right fun _ => ?_
  simp only [Occurs, not_exists, not_and, ← forall_and]

/-- An approval in small letters counts, twice as well and after a comment, until changes are
requested. -/
theorem accepted_by_states_approval :
    let approval : ReviewEntry := ⟨" approved ", none⟩
    let listing : List ReviewEntry := [⟨"COMMENTED", some "ada"⟩, approval, approval]
    (summary listing).isAccepted = true ∧ summary listing = ⟨2, 0, 0⟩ ∧
      (summary (⟨"Request_Changes", none⟩ :: listing)).isAccepted = false ∧
      GitHub.answer (.reviews ⟨"octo", "demo", 5⟩)
        ⟨200, Utf8.encode "[\x7b\"state\":\" approved \"\x7d]".toList⟩ = .ok [⟨.approved, none⟩] := by
  intro approval listing
  have approved : ReviewState.parse? approval.state = some .approved := by decide +kernel
  have single : (summary [approval]).isAccepted = true :=
    (accepted_by_states [approval]).2.2.1.mpr
      ⟨⟨approval, List.mem_singleton_self _, approved⟩, by decide +kernel⟩
  have idle : Idle "COMMENTED" := by
    have known : ReviewState.parse? "COMMENTED" = some .commented := by decide +kernel
    intro state same
    exact .inl (Option.some.inj (same.symm.trans known))
  have alike : Alike [approval] listing := .trans (.repeated approval []) (.inserted _ idle)
  refine ⟨((accepted_by_states _).2.2.2.2 _ alike).trans single, ?_, ?_, ?_⟩
  · exact (accepted_by_states listing).2.2.2.1.trans (by decide +kernel)
  · refine Bool.eq_false_iff.mpr fun accepted => ?_
    have none := ((accepted_by_states _).2.2.1.mp accepted).2 _ List.mem_cons_self
    exact none.1 (by decide +kernel)
  · have state : Written (.value (.string (some " approved "))) "\" approved \"".toList :=
      .string (stringText_chars (by decide))
    have entry := Written.object
      (.lastMember (.plainMember (by decide : Plain "state".toList) state))
    have written := (Written.array (.lastItem entry.plain)).plain
    refine ((accepted_by_states [approval]).1 _ _ ⟨rfl, _, _, ?_, written, rfl⟩).trans ?_
    · refine ⟨_, rfl, .cons ⟨_, rfl, by decide, List.forall_mem_cons.mpr ⟨.inr ⟨_, rfl, rfl⟩, ?_⟩⟩ .nil⟩
      exact List.forall_mem_singleton.mpr (.inl ⟨rfl, rfl⟩)
    · rw [List.filterMap_cons, review?, approved]
      rfl

end ReviewEntry

end BoardRules
