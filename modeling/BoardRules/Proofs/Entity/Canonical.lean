import BoardRules.Proofs.Entity.LinkedIssue
import BoardRules.Proofs.Text.Decimal
import BoardRules.Proofs.Text.Pieces

/-!
# Canonical URLs

An entity's URL is read by its five segments. `ofText?_eq_some_iff` says which texts are read as a
given URL: up to blanks around it and slashes at its end, the URL's own text with its number in any
spelling. So a URL is read back from its own text if its segments are segments and its number is a
positive number of 64 bits. Every URL that is read from a text is of this kind, and so is every
issue that a pull request is resolved to, whatever its description says.
-/
namespace BoardRules

open Text

/-! ## Segments -/

/-- A text that fills one segment of a path. -/
structure IsSegment (text : List Char) : Prop where
  nonempty : text ≠ []
  noSlash : '/' ∉ text

theorem Scheme.ofName?_eq_some_iff {name : List Char} {scheme : Scheme} :
    ofName? name = some scheme ↔ name = scheme.name.toList := by
  constructor
  · intro found
    rw [ofName?] at found
    have same := List.find?_some found
    exact (eq_of_beq same).symm
  · rintro rfl
    cases scheme <;> rfl

theorem EntityKind.ofSegment?_eq_some_iff {segment : List Char} {kind : EntityKind} :
    ofSegment? segment = some kind ↔ segment = kind.segment.toList := by
  constructor
  · intro found
    rw [ofSegment?] at found
    have same := List.find?_some found
    exact (eq_of_beq same).symm
  · rintro rfl
    cases kind <;> rfl

theorem positive?_eq_some_iff {text : List Char} {number : Nat} :
    positive? text = some number ↔
      Decimal.Spells text number ∧ 0 < number ∧ number < Decimal.wordBound := by
  rw [positive?, Option.filter_eq_some_iff, Decimal.word?_eq_some_iff, decide_eq_true_eq]
  exact ⟨fun ⟨⟨spells, small⟩, positive⟩ => ⟨spells, positive, small⟩,
    fun ⟨spells, positive, small⟩ => ⟨⟨spells, small⟩, positive⟩⟩

namespace EntityUrl

/-- The path of the URL if its number is spelled in the given way. -/
def segments (url : EntityUrl) (number : List Char) : List (List Char) :=
  [url.host.toList, url.owner.toList, url.repository.toList, url.kind.segment.toList, number]

def spelled (url : EntityUrl) (number : List Char) : List Char :=
  url.scheme.name.toList ++ (schemeMark ++ ['/'].intercalate (url.segments number))

theorem toList_render (url : EntityUrl) :
    url.render.toList = url.spelled (Decimal.render url.number) := by
  simp [render, spelled, segments, schemeMark, List.intercalate]

/-- A URL that can be read. -/
structure Canonical (url : EntityUrl) : Prop where
  host : IsSegment url.host.toList
  owner : IsSegment url.owner.toList
  repository : IsSegment url.repository.toList
  positive : 0 < url.number
  small : url.number < Decimal.wordBound

/-! ## Reading -/

variable {url pullRequest : EntityUrl}

theorem ofSegments?_eq_some_iff {scheme : Scheme} {parts : List (List Char)} :
    ofSegments? scheme parts = some url ↔ url.scheme = scheme ∧ url.host.toList ≠ [] ∧
      url.owner.toList ≠ [] ∧ url.repository.toList ≠ [] ∧
        ∃ number, parts = url.segments number ∧ positive? number = some url.number := by
  constructor
  · intro reads
    unfold ofSegments? at reads
    split at reads
    · next host owner repository kind number =>
      split at reads
      · cases reads
      · next filled =>
        obtain ⟨kind', known, n, positive, reads⟩ :
            ∃ kind', EntityKind.ofSegment? kind = some kind' ∧ ∃ n, positive? number = some n ∧
              some ⟨scheme, .ofList host, .ofList owner, .ofList repository, kind', n⟩ =
                some url := by
          simpa [bind, Option.bind_eq_some_iff] using reads
        obtain rfl := Option.some.inj reads
        obtain rfl := EntityKind.ofSegment?_eq_some_iff.mp known
        simp only [Bool.or_eq_true, List.isEmpty_iff, not_or] at filled
        exact ⟨rfl, by simpa using filled.1.1, by simpa using filled.1.2, by simpa using filled.2,
          number, by simp [segments], positive⟩
    · cases reads
  · rintro ⟨rfl, host, owner, repository, number, rfl, positive⟩
    have known : EntityKind.ofSegment? url.kind.segment.toList = some url.kind :=
      EntityKind.ofSegment?_eq_some_iff.mpr rfl
    rw [segments, ofSegments?, if_neg (by simp [host, owner, repository])]
    simp [known, positive]

/-- What is read as the URL is, once trimmed, the URL with its number in some spelling. -/
theorem ofText?_eq_some_iff {text : List Char} : ofText? text = some url ↔
    url.Canonical ∧ ∃ number, Decimal.Spells number url.number ∧
      dropEndWhile (· == '/') (trim text) = url.spelled number := by
  constructor
  · intro reads
    obtain ⟨⟨name, path⟩, cut, reads⟩ := Option.bind_eq_some_iff.mp reads
    obtain ⟨scheme, known, reads⟩ := Option.bind_eq_some_iff.mp reads
    obtain ⟨same, host, owner, repository, number, split, positive⟩ :=
      ofSegments?_eq_some_iff.mp reads
    obtain ⟨whole, joined⟩ := (pieces_eq_iff (by simp [segments])).mp split
    obtain ⟨spells, positive, small⟩ := positive?_eq_some_iff.mp positive
    have noSlash : ∀ part ∈ url.segments number, '/' ∉ part := whole
    simp only [segments, List.forall_mem_cons] at noSlash
    refine ⟨⟨⟨host, noSlash.1⟩, ⟨owner, noSlash.2.1⟩, ⟨repository, noSlash.2.2.1⟩, positive, small⟩,
      number, spells, ?_⟩
    rw [of_cutAt? cut, joined, spelled, same, Scheme.ofName?_eq_some_iff.mp known]
  · rintro ⟨canonical, number, spells, trimmed⟩
    have noColon : ':' ∉ url.scheme.name.toList := by cases url.scheme <;> decide
    have whole : ∀ part ∈ url.segments number, '/' ∉ part := by
      simp only [segments, List.forall_mem_cons]
      refine ⟨canonical.host.noSlash, canonical.owner.noSlash, canonical.repository.noSlash, ?_,
        spells.not_mem (by decide) (by decide), by simp⟩
      cases url.kind <;> decide
    -- The scheme has no colon and no part a slash, so that the text is cut where it was joined.
    have cut : cutAt? schemeMark (url.spelled number) =
        some (url.scheme.name.toList, ['/'].intercalate (url.segments number)) :=
      cutAt?_append noColon ['/', '/'] _
    have known : Scheme.ofName? url.scheme.name.toList = some url.scheme :=
      Scheme.ofName?_eq_some_iff.mpr rfl
    have split : pieces (· == '/') (['/'].intercalate (url.segments number)) =
        url.segments number := (pieces_eq_iff (by simp [segments])).mpr ⟨whole, rfl⟩
    rw [ofText?, trimmed, cut]
    simp only [bind, Option.bind_some, known, split]
    exact ofSegments?_eq_some_iff.mpr ⟨rfl, canonical.host.nonempty, canonical.owner.nonempty,
      canonical.repository.nonempty, number, rfl,
      positive?_eq_some_iff.mpr ⟨spells, canonical.positive, canonical.small⟩⟩

theorem canonical_of_ofText? {text : List Char} (reads : ofText? text = some url) :
    url.Canonical := (ofText?_eq_some_iff.mp reads).1

theorem spelled_eq_append (number : List Char) :
    url.spelled number = url.spelled [] ++ number := by
  simp [spelled, segments, List.intercalate]

/-- There is nothing to trim from the text of a URL. -/
theorem ofText?_spelled (canonical : url.Canonical) {number : List Char}
    (spells : Decimal.Spells number url.number) : ofText? (url.spelled number) = some url := by
  obtain ⟨c, last, digit⟩ := spells.getLast?
  have filled : number ≠ [] := by
    rintro rfl
    cases last
  have ends : (url.spelled number).getLast? = some c := by
    rw [spelled_eq_append, List.getLast?_append_of_ne_nil _ filled, last]
  have starts : (url.spelled number).head? = some 'h' := by
    rw [spelled]
    cases url.scheme <;> rfl
  have trimmed : trim (url.spelled number) = url.spelled number := by
    refine trim_eq_self _ ?_ ?_
    · rw [starts]
      rintro _ ⟨⟩
      decide
    · rw [ends]
      rintro _ ⟨⟩
      exact isBlank_of_isDigit digit
  refine ofText?_eq_some_iff.mpr ⟨canonical, number, spells, ?_⟩
  rw [trimmed]
  refine dropEndWhile_eq_self _ ?_
  rw [ends]
  rintro _ ⟨⟩
  exact beq_eq_false_iff_ne.mpr (ne_of_isDigit digit (by decide))

theorem ofText?_render (canonical : url.Canonical) : ofText? url.render.toList = some url := by
  rw [toList_render]
  exact ofText?_spelled canonical ⟨_, Decimal.digits_render url.number, Or.inl rfl⟩

/-! ## What is built from URLs -/

theorem Canonical.toIssue (canonical : url.Canonical) : url.toIssue.Canonical :=
  ⟨canonical.host, canonical.owner, canonical.repository, canonical.positive, canonical.small⟩

theorem Canonical.siblingIssue (canonical : url.Canonical) {owner repository : String}
    {number : Nat} (owned : IsSegment owner.toList) (named : IsSegment repository.toList)
    (positive : 0 < number) (small : number < Decimal.wordBound) :
    (url.siblingIssue owner repository number).Canonical :=
  ⟨canonical.host, owned, named, positive, small⟩

/-- Any part of a reference that is taken for an owner or a repository is a segment. -/
theorem Canonical.resolve? (canonical : pullRequest.Canonical) {reference : List Char}
    (resolves : ClosingReference.resolve? pullRequest reference = some url) : url.Canonical := by
  cases full : ClosingReference.isFullUrl reference with
  | true =>
    rw [ClosingReference.resolve?_full pullRequest full] at resolves
    exact canonical_of_ofText? resolves
  | false =>
    simp only [ClosingReference.resolve?, full, Bool.false_eq_true, if_false, bind,
      Option.bind_eq_some_iff] at resolves
    obtain ⟨⟨path, digits⟩, _, number, read, resolves⟩ := resolves
    obtain ⟨_, positive, small⟩ := positive?_eq_some_iff.mp read
    split at resolves
    · obtain rfl := Option.some.inj resolves
      exact canonical.siblingIssue canonical.owner canonical.repository positive small
    · obtain ⟨⟨owner, repository⟩, cut, resolves⟩ := Option.bind_eq_some_iff.mp resolves
      split at resolves
      · cases resolves
      · next whole =>
        obtain rfl := Option.some.inj resolves
        simp only [Bool.or_eq_true, List.isEmpty_iff, List.contains_iff_mem, not_or] at whole
        refine canonical.siblingIssue ⟨?_, ?_⟩ ⟨?_, ?_⟩ positive small
        · simpa using whole.1.1
        · simpa using not_mem_of_cutAt? cut
        · simpa using whole.1.2
        · simpa using whole.2

theorem Canonical.referencedIssue? (canonical : pullRequest.Canonical) {description : String}
    (refers : pullRequest.referencedIssue? description = some url) : url.Canonical := by
  obtain ⟨reference, _, resolves⟩ := Option.bind_eq_some_iff.mp refers
  exact canonical.resolve? resolves

theorem Canonical.linkedIssue (canonical : pullRequest.Canonical) (description : Option String) :
    (pullRequest.linkedIssue description).Canonical := by
  cases refers : description.bind pullRequest.referencedIssue? with
  | none => simpa [EntityUrl.linkedIssue, refers] using canonical.toIssue
  | some url =>
    obtain ⟨text, _, refers'⟩ := Option.bind_eq_some_iff.mp refers
    simpa [EntityUrl.linkedIssue, refers] using canonical.referencedIssue? refers'

/-- The URLs that come up: those read from texts, and what they are turned into. -/
inductive Built : EntityUrl → Prop where
  | parsed {text : String} {url : EntityUrl} (reads : parse text = .ok url) : Built url
  | issue {url : EntityUrl} (built : Built url) : Built url.toIssue
  | referenced {pullRequest url : EntityUrl} {description : String} (built : Built pullRequest)
      (refers : pullRequest.referencedIssue? description = some url) : Built url
  | linked {pullRequest : EntityUrl} (built : Built pullRequest) (description : Option String) :
      Built (pullRequest.linkedIssue description)

theorem parse_eq_ok_iff {text : String} :
    parse text = .ok url ↔ ofText? text.toList = some url := by
  rw [parse]
  cases ofText? text.toList <;> simp

theorem Built.canonical (built : Built url) : url.Canonical := by
  induction built with
  | parsed reads => exact canonical_of_ofText? (parse_eq_ok_iff.mp reads)
  | issue built ih => exact ih.toIssue
  | referenced built refers ih => exact ih.referencedIssue? refers
  | linked built description ih => exact ih.linkedIssue description

/-- Every URL that comes up is read back from its own text, and its parts are segments and a
positive number. -/
theorem parse_render_of_built (built : Built url) :
    parse url.render = .ok url ∧ IsSegment url.host.toList ∧ IsSegment url.owner.toList ∧
      IsSegment url.repository.toList ∧ 1 ≤ url.number :=
  have canonical := built.canonical
  ⟨parse_eq_ok_iff.mpr (ofText?_render canonical), canonical.host, canonical.owner,
    canonical.repository, canonical.positive⟩

/-- An owner may look like the scheme of a URL. -/
theorem parse_render_of_built_shorthand :
    Built ⟨.https, "github.com", "http:", "demo", .issue, 7⟩ ∧
      parse "https://github.com/http:/demo/issues/7" =
        .ok ⟨.https, "github.com", "http:", "demo", .issue, 7⟩ := by
  have reads : ofText? " https://github.com/octo/demo/pull/+05/\n".toList =
      some ⟨.https, "github.com", "octo", "demo", .pullRequest, 5⟩ := by decide +kernel
  have refers : referencedIssue? ⟨.https, "github.com", "octo", "demo", .pullRequest, 5⟩
      "Fixes http:/demo#007." = some ⟨.https, "github.com", "http:", "demo", .issue, 7⟩ := by
    decide +kernel
  have built : Built ⟨.https, "github.com", "http:", "demo", .issue, 7⟩ :=
    .referenced (.parsed (parse_eq_ok_iff.mpr reads)) refers
  exact ⟨built, (parse_render_of_built built).1⟩

end EntityUrl

end BoardRules
