import BoardRules.Proofs.Note.RuleOfThree
import BoardRules.Proofs.Note.InlineReading
import BoardRules.Proofs.Note.Separators
import Mathlib.Data.List.Chain

/-!
# Parsed rules

Every rule of every note is well formed: it has a name, and its arguments are texts on one line
that no trimming makes shorter. Trimming leaves something of an argument because a run opens only
before a visible character. That character stays right behind the run for as long as the run is
there: pairing takes marks off runs and puts pieces under emphasis, but never parts an opener from
text that follows it.
-/
namespace BoardRules

open Text

/-- A text on one line, with visible characters at its ends. -/
structure IsTrimmed (text : List Char) : Prop where
  nonempty : text ≠ []
  oneLine : '\n' ∉ text
  startsVisible : ∀ c ∈ text.head?, isBlank c = false
  endsVisible : ∀ c ∈ text.getLast?, isBlank c = false

structure Declaration.WellFormed (rule : Declaration) : Prop where
  named : rule.name.toList ≠ []
  oneLine : '\n' ∉ rule.name.toList
  arguments : ∀ argument ∈ rule.arguments, IsTrimmed argument.toList

namespace Note

/-! ## Trimming -/

theorem isBlank_of_isAsciiPunctuation {c : Char} (punctuation : isAsciiPunctuation c = true) :
    isBlank c = false := by
  simp only [isAsciiPunctuation, Bool.or_eq_true, Bool.and_eq_true, decide_eq_true_eq] at punctuation
  simp only [isBlank, Bool.or_eq_false_iff, Bool.and_eq_false_iff, decide_eq_false_iff_not,
    beq_eq_false_iff_ne]
  omega

/-- Of a line that begins with a visible character, trimming leaves something. -/
theorem isTrimmed_trim {text : List Char} (nonempty : text ≠ []) (oneLine : '\n' ∉ text)
    (startsVisible : ∀ c ∈ text.head?, isBlank c = false) : IsTrimmed (trim text) := by
  obtain ⟨⟨before, after, parts, blankBefore, blankAfter⟩, starts, ends⟩ := trimmed_trim text
  refine ⟨fun nothing => ?_, fun broken => oneLine ?_, starts, ends⟩
  · obtain ⟨first, rest, rfl⟩ := List.exists_cons_of_ne_nil nonempty
    rw [nothing, List.nil_append] at parts
    have blank : isBlank first = true := by
      rcases List.mem_append.mp (parts ▸ List.mem_cons_self) with front | back
      · exact blankBefore first front
      · exact blankAfter first back
    cases (startsVisible first rfl).symm.trans blank
  · rw [parts]
    exact List.mem_append_right _ (List.mem_append_left _ broken)

/-- A word has no blank at all. -/
theorem isTrimmed_of_mem_words {text word : List Char} (member : word ∈ words text) :
    IsTrimmed word := by
  obtain ⟨cut, filled⟩ := List.mem_filter.mp member
  have visible := not_of_mem_pieces cut
  refine ⟨by simpa using filled, fun broken => ?_, ?_, ?_⟩
  · exact absurd (visible _ broken) (by decide)
  · exact fun c first => visible c (List.mem_of_head? first)
  · exact fun c last => visible c (List.mem_of_getLast? last)

/-! ## Names -/

theorem closeCode?_ne_nil {length : Nat} {text code after : List Char}
    (found : closeCode? length text = some (code, after)) (starts : text.head? ≠ some backtick) :
    code ≠ [] := by
  cases text with
  | nil =>
    rw [closeCode?] at found
    cases found
  | cons c rest =>
    have other : c ≠ backtick := fun same => starts (congrArg some same)
    rw [closeCode?, if_pos other, Option.map_eq_some_iff] at found
    obtain ⟨split, _, same⟩ := found
    rw [← (Prod.mk.inj same).1]
    exact List.cons_ne_nil _ _

theorem codeText_filled {code : List Char} (filled : code ≠ []) :
    codeText code ≠ [] ∧ '\n' ∉ codeText code := by
  have oneLine : '\n' ∉ code.map fun c => if c = '\n' then ' ' else c := by
    intro broken
    obtain ⟨c, _, same⟩ := List.mem_map.mp broken
    split at same
    · cases same
    · next other => exact other same
  have nonempty : code.map (fun c => if c = '\n' then ' ' else c) ≠ [] := by simpa using filled
  unfold codeText
  generalize code.map (fun c => if c = '\n' then ' ' else c) = spaced at oneLine nonempty
  simp only
  split
  · exact ⟨nonempty, oneLine⟩
  · next visible =>
    split
    · next padded =>
      refine ⟨fun bare => visible ?_, fun broken => oneLine ?_⟩
      · -- one or two spaces and nothing else would be left
        obtain ⟨first, rest, rfl⟩ := List.exists_cons_of_ne_nil nonempty
        obtain rfl : first = ' ' := Option.some.inj padded.1
        rcases List.eq_nil_or_concat rest with rfl | ⟨initial, last, rfl⟩
        · rfl
        · have final : last = ' ' := by
            rw [List.concat_eq_append, ← List.cons_append, List.getLast?_concat] at padded
            exact Option.some.inj padded.2
          have inner : initial = [] := by simpa using bare
          simp [final, inner]
      · exact List.mem_of_mem_tail (List.mem_of_mem_dropLast broken)
    · exact ⟨nonempty, oneLine⟩

/-! ## Pieces -/

def Piece.Opens : Piece → Prop
  | .run r => r.canOpen = true
  | _ => False

/-- What can stand right after a run that opens: if it spells anything, then first a visible
character. -/
def Piece.Visible (p : Piece) : Prop := ∀ c ∈ p.spelling.head?, isBlank c = false

/-- Text that stands for something and runs over no line. -/
structure Piece.Filled (p : Piece) : Prop where
  nonempty : p.isText = true → p.spelling ≠ []
  oneLine : '\n' ∉ p.spelling

/-- Emphasis does not begin with blank text. -/
structure Begun (inner : List Piece) : Prop where
  filled : ∀ p ∈ inner, p.Filled
  visible : ∀ p ∈ inner.head?, p.Visible

/-- What a piece is to be so that rules read from it are well formed. -/
def Piece.Sound : Piece → Prop
  | .text cs => cs ≠ [] ∧ '\n' ∉ cs
  | .code cs => cs ≠ [] ∧ '\n' ∉ cs
  | .lineBreak => True
  | .run r => (r.mark = '*' ∨ r.mark = '_') ∧ 0 < r.remaining
  | .strong inner => Begun inner
  | .emphasis inner => Begun inner

/-- An opener and what is right after it. -/
def Follows (first second : Piece) : Prop := first.Opens → second.Visible

/-- Pieces of a text in which openers stand before visible characters. -/
structure Flanked (pieces : List Piece) : Prop where
  sound : ∀ p ∈ pieces, p.Sound
  chain : pieces.IsChain Follows

theorem visible_of_not_isText {p : Piece} (noText : p.isText = false) : p.Visible := by
  intro c first
  cases p with
  | text | run => cases noText
  | _ => cases first

theorem Piece.Sound.filled {p : Piece} (sound : p.Sound) : p.Filled := by
  cases p with
  | text cs => exact ⟨fun _ => sound.1, sound.2⟩
  | run r =>
    obtain ⟨mark, left⟩ := sound
    refine ⟨fun _ => ?_, fun broken => ?_⟩
    · simpa [Piece.spelling] using Nat.ne_of_gt left
    · have same : '\n' = r.mark := List.eq_of_mem_replicate broken
      rcases mark with star | lowLine
      · cases same.trans star
      · cases same.trans lowLine
  | _ => exact ⟨fun text => Bool.noConfusion text, List.not_mem_nil⟩

theorem visible_run {r : Run} (sound : Piece.Sound (.run r)) : Piece.Visible (.run r) := by
  intro c first
  have same : c = r.mark := List.eq_of_mem_replicate (List.mem_of_head? first)
  rcases sound.1 with star | lowLine
  · rw [same, star]
    decide
  · rw [same, lowLine]
    decide

/-! ### Pieces of a paragraph -/

/-- Text opens nothing, so any piece can follow it. -/
theorem Flanked.flushed {pending : List Char} (oneLine : '\n' ∉ pending) {pieces : List Piece}
    (flanked : Flanked pieces) : Flanked (flushText pending ++ pieces) := by
  unfold flushText
  split
  · exact flanked
  · next filled =>
    refine ⟨List.forall_mem_cons.mpr ⟨⟨by simpa using filled, by simpa using oneLine⟩,
      flanked.sound⟩, ?_⟩
    exact List.isChain_cons.mpr ⟨fun _ _ opens => opens.elim, flanked.chain⟩

theorem Flanked.cons {p : Piece} {pieces : List Piece} (sound : p.Sound)
    (follows : p.Opens → ∀ q ∈ pieces.head?, q.Visible) (flanked : Flanked pieces) :
    Flanked (p :: pieces) :=
  ⟨List.forall_mem_cons.mpr ⟨sound, flanked.sound⟩,
    List.isChain_cons.mpr ⟨fun q next opens => follows opens q next, flanked.chain⟩⟩

/-- The text collected so far comes before all other pieces. -/
theorem visible_head?_flushText {pending : List Char} {pieces : List Piece}
    (starts : ∀ c ∈ pending.getLast?, isBlank c = false)
    (visible : ∀ p ∈ pieces.head?, p.Visible) :
    ∀ p ∈ (flushText pending ++ pieces).head?, p.Visible := by
  intro p first
  unfold flushText at first
  split at first
  · exact visible p first
  · rw [← Option.some.inj first]
    intro c head
    rw [Piece.spelling, List.head?_reverse] at head
    exact starts c head

/-- A text that begins with a visible character begins with a piece that can follow an opener. -/
theorem visible_head?_piecesAfter (before : Option Char) (pending text : List Char)
    (starts : ∀ c ∈ (pending.reverse ++ text).head?, isBlank c = false) :
    ∀ p ∈ (piecesAfter before pending text).head?, p.Visible := by
  have collected : ∀ {pending text : List Char},
      (∀ c ∈ (pending.reverse ++ text).head?, isBlank c = false) →
      ∀ c ∈ pending.getLast?, isBlank c = false := by
    intro pending text starts c last
    refine starts c ?_
    rw [List.head?_append, List.head?_reverse, Option.mem_def.mp last]
    rfl
  have next : ∀ {p : Piece} {rest : List Piece}, p.Visible → ∀ q ∈ (p :: rest).head?, q.Visible :=
    fun visible q first => Option.some.inj first ▸ visible
  fun_induction piecesAfter before pending text with
  | case1 before pending =>
    have flushed : ∀ p ∈ (flushText pending ++ []).head?, p.Visible :=
      visible_head?_flushText (collected starts) (by simp)
    rwa [List.append_nil] at flushed
  | case2 before pending rest ih =>
    exact visible_head?_flushText (collected starts) (next (visible_of_not_isText rfl))
  | case3 before pending c rest noBreak punctuation ih =>
    refine ih fun d first => ?_
    rw [List.reverse_cons, List.append_assoc, List.head?_append] at first
    cases last : pending.reverse.head? with
    | none =>
      rw [last] at first
      exact Option.some.inj first ▸ isBlank_of_isAsciiPunctuation punctuation
    | some e =>
      rw [last] at first
      exact starts d (by rw [List.head?_append, last]; exact first)
  | case4 before pending c rest noBreak plain ih => exact ih (by simpa using starts)
  | case5 before pending rest ih =>
    refine visible_head?_flushText (fun c last => collected starts c ?_)
      (next (visible_of_not_isText rfl))
    obtain ⟨spaces, split⟩ := List.dropWhile_suffix (l := pending) (· == ' ')
    rw [← split, List.getLast?_append, Option.mem_def.mp last]
    rfl
  | case6 before pending rest code after =>
    exact visible_head?_flushText (collected starts) (next (visible_of_not_isText rfl))
  | case7 before pending rest _ _ _ none ih =>
    refine ih ?_
    rwa [List.reverse_append, List.reverse_replicate, List.append_assoc, replicate_runLength_append]
  | case8 before pending c rest _ _ _ _ mark =>
    exact visible_head?_flushText (collected starts) (next (visible_run ⟨mark, Nat.succ_pos _⟩))
  | case9 before pending c rest _ _ _ _ _ ih => exact ih (by simpa using starts)

/-- A run opens only before a visible character. -/
theorem visible_of_canOpen {mark : Char} {length : Nat} {before after : Option Char}
    (opens : (Run.between mark length before after).canOpen = true) :
    ∀ c ∈ after, isBlank c = false := by
  intro c next
  obtain rfl := Option.mem_def.mp next
  cases visible : isBlank c with
  | false => rfl
  | true =>
    unfold Run.between flanking at opens
    simp only at opens
    split at opens <;> simp [visible] at opens

/-- The pieces of a paragraph. -/
theorem flanked_piecesAfter (before : Option Char) (pending text : List Char)
    (oneLine : '\n' ∉ pending) : Flanked (piecesAfter before pending text) := by
  have nothing : Flanked [] := ⟨by simp, List.isChain_nil⟩
  fun_induction piecesAfter before pending text with
  | case1 before pending =>
    have flushed := Flanked.flushed oneLine nothing
    rwa [List.append_nil] at flushed
  | case2 before pending rest ih =>
    exact .flushed oneLine (.cons trivial (fun opens => opens.elim) (ih List.not_mem_nil))
  | case3 before pending c rest noBreak punctuation ih =>
    refine ih fun broken => ?_
    rcases List.mem_cons.mp broken with rfl | earlier
    · exact absurd punctuation (by decide)
    · exact oneLine earlier
  | case4 before pending c rest noBreak plain ih => exact ih (by simpa using oneLine)
  | case5 before pending rest ih =>
    have kept : '\n' ∉ pending.dropWhile (· == ' ') := fun broken =>
      oneLine ((List.dropWhile_sublist _).subset broken)
    exact .flushed kept (.cons trivial (fun opens => opens.elim) (ih List.not_mem_nil))
  | case6 before pending rest code after _ _ _ found ih =>
    have filled := codeText_filled (closeCode?_ne_nil found (head?_afterRun _ _))
    exact .flushed oneLine (.cons filled (fun opens => opens.elim) (ih List.not_mem_nil))
  | case7 before pending rest _ _ _ none ih =>
    refine ih fun broken => ?_
    rcases List.mem_append.mp broken with marks | earlier
    · exact absurd (List.eq_of_mem_replicate marks) (by decide)
    · exact oneLine earlier
  | case8 before pending c rest _ _ _ _ mark ih =>
    refine .flushed oneLine (.cons ⟨mark, Nat.succ_pos _⟩ (fun opens => ?_) (ih List.not_mem_nil))
    exact visible_head?_piecesAfter _ _ _ (visible_of_canOpen opens)
  | case9 before pending c rest _ _ noBreak _ _ ih =>
    refine ih fun broken => ?_
    rcases List.mem_cons.mp broken with same | earlier
    · exact noBreak same.symm
    · exact oneLine earlier

/-! ### Pairing -/

theorem Flanked.append {first second : List Piece} (flanked : Flanked first)
    (visible : ∀ p ∈ second.head?, p.Visible) (others : Flanked second) :
    Flanked (first ++ second) :=
  ⟨List.forall_mem_append.mpr ⟨flanked.sound, others.sound⟩,
    List.isChain_append.mpr ⟨flanked.chain, others.chain, fun _ _ q next _ => visible q next⟩⟩

theorem Flanked.of_append {first second : List Piece} (flanked : Flanked (first ++ second)) :
    Flanked first ∧ Flanked second := by
  obtain ⟨soundFirst, soundSecond⟩ := List.forall_mem_append.mp flanked.sound
  obtain ⟨chainFirst, chainSecond, _⟩ := List.isChain_append.mp flanked.chain
  exact ⟨⟨soundFirst, chainFirst⟩, ⟨soundSecond, chainSecond⟩⟩

theorem sound_wrap {inner : List Piece} (n : Nat) (begun : Begun inner) :
    (Piece.wrap n inner).Sound := by
  unfold Piece.wrap
  split <;> exact begun

theorem visible_wrap (n : Nat) (inner : List Piece) : (Piece.wrap n inner).Visible := by
  unfold Piece.wrap
  split <;> exact visible_of_not_isText rfl

theorem not_opens_wrap (n : Nat) (inner : List Piece) : ¬ (Piece.wrap n inner).Opens := by
  unfold Piece.wrap
  split <;> exact id

/-- What is left of a run stands where the run stood. -/
theorem Flanked.spend {r : Run} {rest : List Piece} (n : Nat) (flanked : Flanked (.run r :: rest)) :
    Flanked (r.spend n ++ rest) := by
  obtain ⟨sound, others⟩ := List.forall_mem_cons.mp flanked.sound
  obtain ⟨next, chain⟩ := List.isChain_cons.mp flanked.chain
  unfold Run.spend
  split
  · exact ⟨others, chain⟩
  · next left =>
    exact .cons ⟨sound.1, Nat.pos_of_ne_zero left⟩ (fun opens q first => next q first opens)
      ⟨others, chain⟩

theorem visible_head?_spend {r : Run} {p : Piece} (n : Nat) (sound : Piece.Sound (.run r))
    (visible : p.Visible) (rest : List Piece) :
    ∀ q ∈ (r.spend n ++ p :: rest).head?, q.Visible := by
  intro q first
  unfold Run.spend at first
  split at first
  · exact Option.some.inj first ▸ visible
  · next left => exact Option.some.inj first ▸ visible_run ⟨sound.1, Nat.pos_of_ne_zero left⟩

/-- Between an opener and its closer stands what can be emphasised, and one piece takes its place. -/
theorem Flanked.pair {outer inner rest : List Piece} {opener closer : Run} (n : Nat)
    (opens : opener.canOpen = true)
    (flanked : Flanked (outer ++ .run opener :: (inner ++ .run closer :: rest))) :
    Flanked (outer ++ (opener.spend n ++ .wrap n inner :: (closer.spend n ++ rest))) := by
  obtain ⟨before, within⟩ := flanked.of_append
  obtain ⟨sound, others⟩ := List.forall_mem_cons.mp within.sound
  obtain ⟨next, chain⟩ := List.isChain_cons.mp within.chain
  obtain ⟨enclosed, after⟩ := Flanked.of_append ⟨others, chain⟩
  have begun : Begun inner := by
    refine ⟨fun p member => (enclosed.sound p member).filled, fun p first => next p ?_ opens⟩
    rw [List.head?_append, Option.mem_def.mp first]
    rfl
  have closed : Flanked (.wrap n inner :: (closer.spend n ++ rest)) :=
    .cons (sound_wrap n begun) (fun wrapped => absurd wrapped (not_opens_wrap n inner)) (after.spend n)
  have opened : Flanked (.run opener :: .wrap n inner :: (closer.spend n ++ rest)) :=
    .cons sound (fun _ p first => Option.some.inj first ▸ visible_wrap n inner) closed
  exact before.append (visible_head?_spend n sound (visible_wrap n inner) _) (opened.spend n)

/-- Pairing keeps visible characters behind openers. -/
theorem flanked_pairRuns (before ahead : List Piece) (flanked : Flanked (before.reverse ++ ahead)) :
    Flanked (pairRuns before ahead) := by
  fun_induction pairRuns before ahead with
  | case1 before => rwa [List.append_nil] at flanked
  | case2 before closer rest closes inner opener farther found ih =>
    obtain ⟨rfl, opensFor⟩ := of_findOpener? found
    have opens : opener.canOpen = true := by
      simp only [Run.opensFor, Bool.and_eq_true] at opensFor
      exact opensFor.1.1.2
    refine ih ?_
    rw [List.reverse_append, List.reverse_cons, List.append_assoc, List.append_assoc] at flanked
    have paired := Flanked.pair (opener.pairLength closer) opens flanked
    simpa [reverse_spend] using paired
  | case3 before closer rest closes none ih =>
    refine ih ?_
    obtain ⟨read, more⟩ := flanked.of_append
    obtain ⟨sound, later⟩ := List.forall_mem_cons.mp more.sound
    obtain ⟨next, chain⟩ := List.isChain_cons.mp more.chain
    have tried : Piece.Sound (.run { closer with canClose := false }) := sound
    rw [List.reverse_cons, List.append_assoc]
    exact read.append (fun p first => Option.some.inj first ▸ visible_run tried)
      (.cons tried (fun opens q first => next q first opens) ⟨later, chain⟩)
  | case4 before closer rest closed ih => exact ih (by simpa using flanked)
  | case5 before p rest noRun ih => exact ih (by simpa using flanked)

/-! ## Settled text -/

/-- What a node is to be so that rules read from it are well formed. -/
structure Inline.Sound (node : Inline) : Prop where
  name : ∀ cs, node = .code cs → cs ≠ [] ∧ '\n' ∉ cs
  argument : ∀ cs ∈ node.argument?, IsTrimmed cs

/-- Text at the beginning begins with what the first piece spells. -/
theorem prefix_of_settleAll_cons {p : Piece} {rest : List Piece} {cs : List Char}
    {more : List Inline} (settled : settleAll (p :: rest) = .text cs :: more) :
    p.isText = true ∧ p.spelling <+: cs := by
  rw [settleAll] at settled
  cases text : p.isText with
  | true =>
    rw [settle_of_isText text] at settled
    unfold Inline.before at settled
    split at settled
    · next first last later isText isRest =>
      obtain rfl := Inline.text.inj isText
      exact ⟨rfl, Inline.text.inj (List.cons.inj settled).1 ▸ List.prefix_append _ _⟩
    · exact ⟨rfl, Inline.text.inj (List.cons.inj settled).1 ▸ List.prefix_refl _⟩
  | false =>
    have apart := settle_ne_text text
    rw [Inline.before] at settled
    · exact absurd (List.cons.inj settled).1 (apart cs)
    · exact fun first _ _ same => absurd same (apart first)

/-- Emphasised text is a line that begins with a visible character. -/
theorem isTrimmed_of_begun {inner : List Piece} (begun : Begun inner) {cs : List Char}
    {more : List Inline} (settled : settleAll inner = .text cs :: more) : IsTrimmed (trim cs) := by
  cases inner with
  | nil => cases settled
  | cons p rest =>
    have oneLine : '\n' ∉ cs := by
      intro broken
      obtain ⟨q, member, inside⟩ := List.mem_flatMap.mp
        ((prefix_of_settleAll settled).subset broken)
      exact (begun.filled q member).oneLine inside
    obtain ⟨text, begins⟩ := prefix_of_settleAll_cons settled
    have filled := (begun.filled p List.mem_cons_self).nonempty text
    obtain ⟨tail, rfl⟩ := begins
    refine isTrimmed_trim (List.append_ne_nil_of_left_ne_nil filled _) oneLine fun c first => ?_
    rw [List.head?_append_of_ne_nil _ filled] at first
    exact begun.visible p rfl c first

theorem sound_text (cs : List Char) : (Inline.text cs).Sound :=
  ⟨fun _ same => Inline.noConfusion same, fun _ none => by cases none⟩

theorem sound_emphasised {inner : List Piece} (begun : Begun inner) {node : Inline}
    (emphasised : node = .strong (settleAll inner) ∨ node = .emphasis (settleAll inner)) :
    node.Sound := by
  refine ⟨fun cs code => ?_, fun cs found => ?_⟩
  · rcases emphasised with rfl | rfl <;> cases code
  · have text : ∃ first more, settleAll inner = .text first :: more ∧ trim first = cs := by
      rcases emphasised with rfl | rfl <;>
      · unfold Inline.argument? at found
        split at found <;> simp_all
    obtain ⟨first, more, settled, rfl⟩ := text
    exact isTrimmed_of_begun begun settled

theorem sound_settle {p : Piece} (sound : p.Sound) : p.settle.Sound := by
  cases p with
  | text cs => exact sound_text cs
  | run r => exact sound_text _
  | lineBreak => exact ⟨fun _ same => Inline.noConfusion same, fun _ none => by cases none⟩
  | code cs =>
    refine ⟨fun name same => ?_, fun _ none => by cases none⟩
    rw [← Inline.code.inj same]
    exact sound
  | strong inner => exact sound_emphasised sound (.inl rfl)
  | emphasis inner => exact sound_emphasised sound (.inr rfl)

/-- Text is put in front of other text, and nothing else changes. -/
theorem forall_settleAll {P : Inline → Prop} {pieces : List Piece} (text : ∀ cs, P (.text cs))
    (settled : ∀ p ∈ pieces, P p.settle) : ∀ node ∈ settleAll pieces, P node := by
  induction pieces with
  | nil => exact fun node member => absurd member List.not_mem_nil
  | cons p rest ih =>
    obtain ⟨first, others⟩ := List.forall_mem_cons.mp settled
    have later := ih others
    rw [settleAll]
    unfold Inline.before
    split
    · next isText isRest =>
      rw [isRest] at later
      exact List.forall_mem_cons.mpr ⟨text _, (List.forall_mem_cons.mp later).2⟩
    · exact List.forall_mem_cons.mpr ⟨first, later⟩

theorem sound_ofText (paragraph : List Char) : ∀ node ∈ Inline.ofText paragraph, node.Sound := by
  have flanked : Flanked (pairRuns [] (Piece.ofText paragraph)) :=
    flanked_pairRuns [] _ (flanked_piecesAfter none [] paragraph List.not_mem_nil)
  exact forall_settleAll sound_text fun p member => sound_settle (flanked.sound p member)

/-! ## Declarations -/

theorem isTrimmed_of_mem_arguments {following : List Inline}
    (sound : ∀ node ∈ following, node.Sound) :
    ∀ argument ∈ arguments following, IsTrimmed argument := by
  intro argument member
  unfold arguments at member
  split at member
  · split at member
    · exact isTrimmed_of_mem_words member
    · cases member
  · next emphasised =>
    obtain ⟨node, inside, found⟩ := List.mem_filterMap.mp member
    exact (sound node inside).argument argument found

theorem wellFormed_declarations {nodes : List Inline} (sound : ∀ node ∈ nodes, node.Sound) :
    ∀ rule ∈ declarations nodes, rule.WellFormed := by
  fun_induction declarations nodes with
  | case1 => exact fun rule member => absurd member List.not_mem_nil
  | case2 name following ih =>
    obtain ⟨code, others⟩ := List.forall_mem_cons.mp sound
    obtain ⟨named, oneLine⟩ := code.name name rfl
    refine List.forall_mem_cons.mpr ⟨⟨?_, ?_, ?_⟩, ih others⟩
    · simpa using named
    · simpa using oneLine
    · intro argument listed
      obtain ⟨text, member, rfl⟩ := List.mem_map.mp listed
      rw [String.toList_ofList]
      exact isTrimmed_of_mem_arguments others text member
  | case3 node following noCode ih => exact ih (List.forall_mem_cons.mp sound).2

/-- Whatever the note, its rules are well formed. -/
theorem wellFormed_rules (note : String) : ∀ rule ∈ rules note, rule.WellFormed := by
  intro rule declared
  obtain ⟨paragraph, _, member⟩ := List.mem_flatMap.mp declared
  exact wellFormed_declarations (sound_ofText paragraph) rule member

/-- One of the three stars before the first argument stays as text; the escaped star is text of the
second. -/
theorem wellFormed_rules_leftoverStar :
    (⟨"new_issue", ["c", "* d"]⟩ : Declaration) ∈
        rules "- `new_issue` ***c** *\\* d*\\\n  ` a `" ∧
      Declaration.WellFormed ⟨"new_issue", ["c", "* d"]⟩ := by
  have declared : (⟨"new_issue", ["c", "* d"]⟩ : Declaration) ∈
      rules "- `new_issue` ***c** *\\* d*\\\n  ` a `" := by decide +kernel
  exact ⟨declared, wellFormed_rules _ _ declared⟩

end Note

end BoardRules
