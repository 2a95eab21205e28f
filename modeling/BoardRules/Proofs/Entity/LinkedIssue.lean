import BoardRules.Entity.ClosingReference

/-!
# What a pull request resolves to

Boards know issues only, so a pull request stands for the issue that its description closes, or for
the issue of its own number. Both short forms of a reference name an issue on the pull request's own
host. A full URL is taken as it stands: it may name a pull request, and then boards are asked for
that pull request.
-/
namespace BoardRules

open Text

namespace ClosingReference

/-- The pull request that a reference gives by its full URL. -/
def pullRequestAt? (reference : List Char) : Option EntityUrl :=
  if isFullUrl reference then
    (EntityUrl.ofText? reference).filter fun url => url.kind = .pullRequest
  else none

/-- The pull request that the closing reference of a description gives by its full URL. -/
def pullRequestIn? (description : String) : Option EntityUrl := do
  let reference ← first? description.toList
  pullRequestAt? (dropEndWhile isSentenceMark reference)

variable {pullRequest url : EntityUrl} {reference : List Char}

/-- Without a full URL, the host is the pull request's own and the kind is fixed. -/
theorem resolve?_short (short : isFullUrl reference = false)
    (resolves : resolve? pullRequest reference = some url) :
    ∃ owner repository number, url = pullRequest.siblingIssue owner repository number := by
  simp only [resolve?, short, Bool.false_eq_true, if_false, bind, Option.bind_eq_some_iff] at resolves
  obtain ⟨⟨path, digits⟩, _, number, _, resolves⟩ := resolves
  split at resolves
  · cases resolves
    exact ⟨_, _, _, rfl⟩
  · obtain ⟨⟨owner, repository⟩, _, resolves⟩ := Option.bind_eq_some_iff.mp resolves
    split at resolves
    · cases resolves
    · cases resolves
      exact ⟨_, _, _, rfl⟩

/-- A full URL resolves to itself, whatever pull request the description belongs to. -/
theorem resolve?_full (pullRequest : EntityUrl) (full : isFullUrl reference = true) :
    resolve? pullRequest reference = EntityUrl.ofText? reference := by
  rw [resolve?, if_pos full]

theorem pullRequestAt?_eq_some_iff : pullRequestAt? reference = some url ↔
    isFullUrl reference = true ∧ EntityUrl.ofText? reference = some url ∧
      url.kind = .pullRequest := by
  cases full : isFullUrl reference <;> simp [pullRequestAt?, full]

/-- What a reference resolves to is no issue exactly if it is a pull request's full URL. -/
theorem kind_of_resolve? (resolves : resolve? pullRequest reference = some url) :
    url.kind = .pullRequest ↔ pullRequestAt? reference = some url := by
  rw [pullRequestAt?_eq_some_iff]
  cases full : isFullUrl reference with
  | true => simp [← resolve?_full pullRequest full, resolves]
  | false =>
    obtain ⟨owner, repository, number, rfl⟩ := resolve?_short full resolves
    simp [EntityUrl.siblingIssue]

/-- A pull request's full URL never fails to resolve. -/
theorem resolve?_of_pullRequestAt? (shown : pullRequestAt? reference = some url) :
    resolve? pullRequest reference = some url := by
  obtain ⟨full, reads, _⟩ := pullRequestAt?_eq_some_iff.mp shown
  rw [resolve?_full pullRequest full, reads]

end ClosingReference

namespace EntityUrl

open ClosingReference

variable {pullRequest url : EntityUrl} {description : String}

theorem kind_of_referencedIssue? (refers : pullRequest.referencedIssue? description = some url) :
    url.kind = .pullRequest ↔ pullRequestIn? description = some url := by
  obtain ⟨reference, first, resolves⟩ := Option.bind_eq_some_iff.mp refers
  have shown : pullRequestIn? description =
      pullRequestAt? (dropEndWhile isSentenceMark reference) := by
    rw [pullRequestIn?, first]
    rfl
  rw [shown]
  exact kind_of_resolve? resolves

theorem referencedIssue?_of_pullRequestIn? (shown : pullRequestIn? description = some url) :
    pullRequest.referencedIssue? description = some url := by
  obtain ⟨reference, first, shown⟩ := Option.bind_eq_some_iff.mp shown
  exact Option.bind_eq_some_iff.mpr ⟨reference, first, resolve?_of_pullRequestAt? shown⟩

theorem kind_of_pullRequestIn? (shown : pullRequestIn? description = some url) :
    url.kind = .pullRequest := by
  obtain ⟨reference, _, shown⟩ := Option.bind_eq_some_iff.mp shown
  exact (pullRequestAt?_eq_some_iff.mp shown).2.2

theorem kind_eq_issue_iff : url.kind = .issue ↔ url.kind ≠ .pullRequest := by
  cases url.kind <;> simp

/-- What a description refers to is an issue if its reference is no pull request's full URL. -/
theorem referencedIssue?_kind (refers : pullRequest.referencedIssue? description = some url) :
    url.kind = .issue ↔ pullRequestIn? description = none := by
  rw [kind_eq_issue_iff, ne_eq, kind_of_referencedIssue? refers, Option.eq_none_iff_forall_ne_some]
  constructor
  · intro other named shown
    have same : some named = some url :=
      (referencedIssue?_of_pullRequestIn? shown).symm.trans refers
    exact other (same ▸ shown)
  · exact fun none => none url

/-- A pull request stands for an issue unless its description's closing reference is the full URL of
a pull request. It stands for that pull request then, on whatever host. -/
theorem linkedIssue_kind (pullRequest : EntityUrl) (description : Option String) :
    ((pullRequest.linkedIssue description).kind = .issue ↔
        description.bind pullRequestIn? = none) ∧
      (∀ named, description.bind pullRequestIn? = some named →
        pullRequest.linkedIssue description = named) ∧
      ∀ text url, pullRequest.referencedIssue? text = some url →
        (url.kind = .issue ↔ pullRequestIn? text = none) := by
  have stands : ∀ named, description.bind pullRequestIn? = some named →
      pullRequest.linkedIssue description = named := by
    intro named shown
    obtain ⟨text, rfl, shown⟩ := Option.bind_eq_some_iff.mp shown
    simp [linkedIssue, referencedIssue?_of_pullRequestIn? shown]
  refine ⟨⟨fun issue => ?_, fun unnamed => ?_⟩, stands, fun _ _ => referencedIssue?_kind⟩
  · refine Option.eq_none_iff_forall_ne_some.mpr fun named shown => ?_
    obtain ⟨text, _, shown'⟩ := Option.bind_eq_some_iff.mp shown
    rw [stands named shown, kind_of_pullRequestIn? shown'] at issue
    cases issue
  · cases refers : description.bind pullRequest.referencedIssue? with
    | none => simp [linkedIssue, refers, toIssue]
    | some url =>
      obtain ⟨text, rfl, refers'⟩ := Option.bind_eq_some_iff.mp refers
      simpa [linkedIssue, refers] using (referencedIssue?_kind refers').mpr unnamed

/-- An issue in another repository of the same host. -/
theorem linkedIssue_kind_shorthand :
    (linkedIssue ⟨.https, "github.com", "octo", "demo", .pullRequest, 5⟩
      (some "Resolves octo/other#4.")).kind = .issue :=
  (linkedIssue_kind _ _).1.mpr (by decide +kernel)

/-- Full URLs of pull requests are accepted as references. -/
theorem linkedIssue_pullRequest : ¬ ∀ (text : String) (pullRequest : EntityUrl)
    (description : Option String), parse text = .ok pullRequest → pullRequest.kind = .pullRequest →
      (pullRequest.linkedIssue description).kind = .issue ∧
        ∀ text url, pullRequest.referencedIssue? text = some url → url.kind = .issue := by
  intro always
  have reads : ofText? "https://github.com/octo/demo/pull/5".toList =
      some ⟨.https, "github.com", "octo", "demo", .pullRequest, 5⟩ := by decide +kernel
  have issue := (always "https://github.com/octo/demo/pull/5" _
    (some "Fixes https://github.com/octo/demo/pull/3") (by rw [parse, reads]) rfl).1
  revert issue
  decide +kernel

end EntityUrl

end BoardRules
