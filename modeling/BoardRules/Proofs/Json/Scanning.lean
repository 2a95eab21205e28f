import BoardRules.Proofs.Json.Grammar

/-!
# Strings and numerals as they are read

Characters, strings and numerals are read back from their texts, up to the place where they are over. A
numeral has no mark at its end, so what follows must be nothing that it could go on with.
-/
namespace BoardRules.Json

open Text

/-! ## Bytes -/

theorem first?_encodeChar (c : Char) (rest : List UInt8) :
    Utf8.first? (String.utf8EncodeChar c ++ rest) = some c := by
  have bytes : (String.utf8EncodeChar c ++ rest).take 4 =
      String.utf8EncodeChar c ++ rest.take (4 - c.utf8Size) := by
    rw [List.take_append, String.length_utf8EncodeChar, List.take_of_length_le]
    rw [String.length_utf8EncodeChar]
    exact c.utf8Size_le_four
  unfold Utf8.first?
  rw [bytes, List.toByteArray_append]
  exact ByteArray.utf8DecodeChar?_utf8EncodeChar_append

/-- Encoded characters are read back, whatever bytes follow them. -/
theorem symbols_encode (text : List Char) (rest : List UInt8) :
    Utf8.symbols (Utf8.encode text ++ rest) = text.map some ++ Utf8.symbols rest := by
  induction text with
  | nil => rfl
  | cons c text others =>
    have split : Utf8.encode (c :: text) ++ rest =
        String.utf8EncodeChar c ++ (Utf8.encode text ++ rest) := by
      simp [Utf8.encode]
    have length := String.length_utf8EncodeChar c
    have first := first?_encodeChar c (Utf8.encode text ++ rest)
    rw [split]
    cases bytes : String.utf8EncodeChar c with
    | nil =>
      rw [bytes] at length
      exact absurd length (Nat.ne_of_lt c.utf8Size_pos)
    | cons byte more =>
      rw [bytes] at first length
      have size : c.utf8Size - 1 = more.length := by rw [← length]; rfl
      rw [List.cons_append] at first ⊢
      rw [Utf8.symbols, first]
      dsimp only
      rw [size, List.drop_left, others]
      rfl

/-! ## Blanks -/

theorem isSpace_iff (c : Char) : isSpace c = true ↔ c ∈ [' ', '\n', '\t', '\r'] := by
  simp [isSpace, or_assoc]

/-- The text does not go on with a character of the given kind. -/
def Stops (p : Char → Bool) (s : List Symbol) : Prop := ∀ c, s.head? = some (some c) → p c = false

theorem Stops.of_imp {p q : Char → Bool} {s : List Symbol} (stops : Stops p s)
    (fewer : ∀ c, q c = true → p c = true) : Stops q s := by
  intro c first
  cases holds : q c with
  | false => rfl
  | true => rw [← stops c first, fewer c holds]

theorem skipSpace_blanks {blanks : List Char} (only : Blanks blanks) (s : List Symbol) :
    skipSpace (blanks.map some ++ s) = skipSpace s := by
  induction blanks with
  | nil => rfl
  | cons c blanks others =>
    have blank : isSpaceSymbol (some c) = true := (isSpace_iff c).mpr (only c List.mem_cons_self)
    rw [List.map_cons, List.cons_append, skipSpace, List.dropWhile_cons_of_pos blank]
    exact others fun d member => only d (List.mem_cons_of_mem c member)

theorem skipSpace_cons {c : Char} (visible : isSpace c = false) (s : List Symbol) :
    skipSpace (some c :: s) = some c :: s :=
  List.dropWhile_cons_of_neg (by simpa [isSpaceSymbol] using visible)

/-! ## Strings -/

theorem digitValue?_of_hexDigit {c : Char} {value : Nat} (digit : HexDigit c value) :
    Hex.digitValue? c = some value := by
  obtain ⟨small, written⟩ := digit
  have all : ∀ n : Fin 16, Hex.digitValue? (Nat.digitChar n.val).toUpper = some n.val := by decide
  rcases written with rfl | rfl
  · exact Hex.digitValue?_digitChar small
  · exact all ⟨value, small⟩

theorem unit?_of_hexDigits {a b c d : Char} {h i j k : Nat} (first : HexDigit a h)
    (second : HexDigit b i) (third : HexDigit c j) (fourth : HexDigit d k) :
    unit? a b c d = some (((h * 16 + i) * 16 + j) * 16 + k) := by
  unfold unit?
  rw [digitValue?_of_hexDigit first, digitValue?_of_hexDigit second,
    digitValue?_of_hexDigit third, digitValue?_of_hexDigit fourth]
  simp only [Option.bind_eq_bind, Option.bind_some, Option.some.injEq]
  omega

theorem escape?_of_mem {letter c : Char} (known : (letter, c) ∈ shortEscapes) :
    escape? letter = some c ∧ letter ≠ 'u' := by
  have all : ∀ pair ∈ shortEscapes, escape? pair.1 = some pair.2 ∧ pair.1 ≠ 'u' := by decide
  exact all _ known

/-- A string is read up to its closing quote. -/
theorem scanQuoted?_quotedText {parts : List Quoted} {body : List Char}
    (written : QuotedText parts body) (rest : List Symbol) :
    scanQuoted? (body.map some ++ some '\x22' :: rest) = some (parts, rest) := by
  induction written with
  | nil => rfl
  | @raw c parts text plain quote backslash _ others =>
    have shown : ¬(c = '\\' ∨ c.toNat < 0x20) := by
      simp only [backslash, false_or]
      omega
    rw [List.map_cons, List.cons_append, scanQuoted?, if_neg shown, others]
    · rfl
    · exact quote
    · exact fun _ _ _ _ _ _ same => backslash same
    · exact fun _ _ _ same => backslash same
  | @short letter c parts text known _ others =>
    obtain ⟨meant, other⟩ := escape?_of_mem known
    rw [List.map_cons, List.map_cons, List.cons_append, List.cons_append, scanQuoted?, meant]
    · dsimp only
      rw [others]
      rfl
    · exact fun _ _ _ _ _ _ same => other same
  | @unit a b c d h i j k parts text first second third fourth _ others =>
    simp only [List.map_cons, List.cons_append]
    rw [scanQuoted?, unit?_of_hexDigits first second third fourth, others]
    rfl

theorem not_surrogate (c : Char) :
    (isHighSurrogate c.toNat || isLowSurrogate c.toNat) = false := by
  have valid := c.valid
  change c.toNat.isValidChar at valid
  unfold Nat.isValidChar at valid
  simp only [isHighSurrogate, isLowSurrogate, Bool.or_eq_false_iff, Bool.and_eq_false_iff,
    decide_eq_false_iff_not]
  omega

theorem characters?_unit {n : Nat} (whole : (isHighSurrogate n || isLowSurrogate n) = false)
    (rest : List Quoted) :
    characters? (.unit n :: rest) = (characters? rest).map (Char.ofNat n :: ·) := by
  have high : isHighSurrogate n = false := (Bool.or_eq_false_iff.mp whole).1
  by_cases paired : ∃ low more, rest = .unit low :: more
  · obtain ⟨low, more, rfl⟩ := paired
    rw [characters?, if_neg (by simp [high]), if_neg (by simp [whole])]
  · rw [characters?, if_neg (by simp [whole])]
    exact fun low more same => paired ⟨low, more, same⟩

theorem characters?_of_denotes {parts : List Quoted} {cs : List Char} (denotes : Denotes parts cs) :
    characters? parts = some cs := by
  induction denotes with
  | nil => rfl
  | char c _ others => rw [characters?, others]; rfl
  | unit c _ _ others =>
    rw [characters?_unit (not_surrogate c), others, Option.map_some, Char.ofNat_toNat]
  | pair c far _ others =>
    have valid := c.valid
    change c.toNat.isValidChar at valid
    unfold Nat.isValidChar at valid
    have number : 0x10000 + (0xD800 + (c.toNat - 0x10000) / 0x400 - 0xD800) * 0x400 +
        (0xDC00 + (c.toNat - 0x10000) % 0x400 - 0xDC00) = c.toNat := by omega
    rw [characters?, if_pos, others, number, Option.map_some, Char.ofNat_toNat]
    simp only [isHighSurrogate, isLowSurrogate, Bool.and_eq_true, decide_eq_true_eq]
    omega

theorem toNat_ofNat {n : Nat} (valid : n.isValidChar) : (Char.ofNat n).toNat = n := by
  unfold Char.ofNat
  rw [dif_pos valid]
  rfl

theorem denotes_whole {n : Nat} {parts : List Quoted} {cs : List Char} (small : n < 0x10000)
    (whole : (isHighSurrogate n || isLowSurrogate n) = false) (denotes : Denotes parts cs) :
    Denotes (.unit n :: parts) (Char.ofNat n :: cs) := by
  simp only [isHighSurrogate, isLowSurrogate, Bool.or_eq_false_iff, Bool.and_eq_false_iff,
    decide_eq_false_iff_not] at whole
  have number : (Char.ofNat n).toNat = n := toNat_ofNat (by unfold Nat.isValidChar; omega)
  have denoted := Denotes.unit (Char.ofNat n) (by rwa [number]) denotes
  rwa [number] at denoted

theorem denotes_halves {high low : Nat} {parts : List Quoted} {cs : List Char}
    (halves : (isHighSurrogate high && isLowSurrogate low) = true) (denotes : Denotes parts cs) :
    Denotes (.unit high :: .unit low :: parts)
      (Char.ofNat (0x10000 + (high - 0xD800) * 0x400 + (low - 0xDC00)) :: cs) := by
  simp only [isHighSurrogate, isLowSurrogate, Bool.and_eq_true, decide_eq_true_eq] at halves
  have number := toNat_ofNat (n := 0x10000 + (high - 0xD800) * 0x400 + (low - 0xDC00))
    (by unfold Nat.isValidChar; omega)
  have denoted := Denotes.pair _ (by rw [number]; omega) denotes
  rw [number] at denoted
  rwa [show 0xD800 + (0x10000 + (high - 0xD800) * 0x400 + (low - 0xDC00) - 0x10000) / 0x400 = high by
    omega, show 0xDC00 + (0x10000 + (high - 0xD800) * 0x400 + (low - 0xDC00) - 0x10000) % 0x400 =
    low by omega] at denoted

/-- What is read is denoted, as long as the units have sixteen bits. -/
theorem denotes_of_characters? {parts : List Quoted} {cs : List Char}
    (units : ∀ n, Quoted.unit n ∈ parts → n < 0x10000) (read : characters? parts = some cs) :
    Denotes parts cs := by
  fun_induction characters? parts generalizing cs with
  | case1 => cases read; exact .nil
  | case2 c rest others =>
    obtain ⟨more, found, rfl⟩ := Option.map_eq_some_iff.mp read
    exact .char c (others (fun n member => units n (List.mem_cons_of_mem _ member)) found)
  | case3 => cases read
  | case4 high low rest halves others =>
    obtain ⟨more, found, rfl⟩ := Option.map_eq_some_iff.mp read
    exact denotes_halves halves (others (fun n member => units n
      (List.mem_cons_of_mem _ (List.mem_cons_of_mem _ member))) found)
  | case5 => cases read
  | case6 high low rest _ whole others =>
    obtain ⟨more, found, rfl⟩ := Option.map_eq_some_iff.mp read
    exact denotes_whole (units high List.mem_cons_self) (Bool.eq_false_iff.mpr whole)
      (others (fun n member => units n (List.mem_cons_of_mem _ member)) found)
  | case7 => cases read
  | case8 n rest _ whole others =>
    obtain ⟨more, found, rfl⟩ := Option.map_eq_some_iff.mp read
    exact denotes_whole (units n List.mem_cons_self) (Bool.eq_false_iff.mpr whole)
      (others (fun n member => units n (List.mem_cons_of_mem _ member)) found)

theorem QuotedText.unit_small {parts : List Quoted} {body : List Char}
    (written : QuotedText parts body) : ∀ n, Quoted.unit n ∈ parts → n < 0x10000 := by
  induction written with
  | nil => simp
  | raw _ _ _ _ others => simpa using others
  | short _ _ others => simpa using others
  | unit first second third fourth _ others =>
    have := first.1
    have := second.1
    have := third.1
    have := fourth.1
    intro n member
    rcases List.mem_cons.mp member with same | later
    · cases same
      omega
    · exact others n later

/-- A string is read with its quotes, and as what it spells. -/
theorem StringText.scan {value : Option String} {text : List Char} (written : StringText value text) :
    ∃ more, text = '\x22' :: more ∧ ∀ rest, ∃ parts,
      scanQuoted? (more.map some ++ rest) = some (parts, rest) ∧
        (characters? parts).map String.ofList = value := by
  obtain ⟨parts, body, quoted, rfl, spells⟩ := written
  refine ⟨_, rfl, ?_⟩
  intro rest
  refine ⟨parts, ?_, ?_⟩
  · simpa using scanQuoted?_quotedText quoted rest
  · cases value with
    | some s =>
      rw [characters?_of_denotes ((spells s).mp rfl), Option.map_some, String.ofList_toList]
    | none =>
      cases read : characters? parts with
      | none => rfl
      | some cs =>
        have denotes := denotes_of_characters? quoted.unit_small read
        have spelt := (spells (String.ofList cs)).mpr (by rwa [String.toList_ofList])
        cases spelt

theorem stringText_of_denotes {parts : List Quoted} {body : List Char} {s : String}
    (quoted : QuotedText parts body) (denotes : Denotes parts s.toList) :
    StringText (some s) ('\x22' :: (body ++ ['\x22'])) := by
  refine ⟨parts, body, quoted, rfl, ?_⟩
  intro t
  constructor
  · intro same
    cases same
    exact denotes
  · intro other
    have same := (characters?_of_denotes denotes).symm.trans (characters?_of_denotes other)
    rw [Option.some.injEq, String.toList_inj] at same
    rw [same]

/-- Characters that need no escape. -/
def Plain (cs : List Char) : Prop := ∀ c ∈ cs, 0x20 ≤ c.toNat ∧ c ≠ '\x22' ∧ c ≠ '\\'

instance (cs : List Char) : Decidable (Plain cs) := List.decidableBAll _ cs

theorem quotedText_chars {cs : List Char} (plain : Plain cs) : QuotedText (cs.map .char) cs := by
  induction cs with
  | nil => exact .nil
  | cons c cs others =>
    obtain ⟨visible, quote, backslash⟩ := plain c List.mem_cons_self
    exact .raw visible quote backslash (others fun d member => plain d (List.mem_cons_of_mem c member))

theorem denotes_chars (cs : List Char) : Denotes (cs.map .char) cs := by
  induction cs with
  | nil => exact .nil
  | cons c cs others => exact .char c others

theorem stringText_chars {s : String} (plain : Plain s.toList) :
    StringText (some s) ('\x22' :: (s.toList ++ ['\x22'])) :=
  stringText_of_denotes (quotedText_chars plain) (denotes_chars s.toList)

theorem Written.plainMember {name : String} {node : Node} {text : List Char}
    (plain : Plain name.toList) (written : Written (.value node) text) :
    Written (.member (some name) node)
      ('\x22' :: (name.toList ++ ['\x22']) ++ ':' :: text) := by
  have none : Blanks [] := by decide
  exact .member none (stringText_chars plain) none written.plain

/-! ## Numerals -/

theorem spanDigits_digits {digits : List Char} {rest : List Symbol}
    (all : ∀ c ∈ digits, c.isDigit = true) (stops : Stops Char.isDigit rest) :
    spanDigits (digits.map some ++ rest) = (digits, rest) := by
  have symbols : ∀ symbol ∈ digits.map some, isDigitSymbol symbol = true := by
    intro symbol member
    obtain ⟨c, inside, rfl⟩ := List.mem_map.mp member
    exact all c inside
  have ended : rest.takeWhile isDigitSymbol = [] ∧ rest.dropWhile isDigitSymbol = rest := by
    match rest, stops with
    | [], _ => exact ⟨rfl, rfl⟩
    | none :: _, _ => exact ⟨rfl, rfl⟩
    | some c :: _, stops =>
      have other : isDigitSymbol (some c) = false := stops c rfl
      simp [other]
  unfold spanDigits
  rw [List.takeWhile_append_of_pos symbols, List.dropWhile_append_of_pos symbols, ended.1, ended.2,
    List.append_nil, List.filterMap_map]
  simp

theorem scanWhole?_wholeText {whole : List Char} {rest : List Symbol} (written : WholeText whole)
    (stops : Stops Char.isDigit rest) :
    scanWhole? (whole.map some ++ rest) = some (whole, rest) := by
  obtain ⟨⟨nonempty, all⟩, alone⟩ := written
  unfold scanWhole?
  rw [spanDigits_digits all stops]
  split
  · rename_i same
    cases same
    exact absurd rfl nonempty
  · rename_i same
    cases same
    cases alone _ rfl
  · rename_i same
    cases same
    rfl

theorem scanFraction?_fractionText {fraction : Option (List Char)} {text : List Char}
    {rest : List Symbol} (written : FractionText fraction text) (stops : Stops Char.isDigit rest)
    (noPoint : Stops (· == '.') rest) :
    scanFraction? (text.map some ++ rest) = some (fraction, rest) := by
  cases written with
  | absent =>
    rw [List.map_nil, List.nil_append]
    unfold scanFraction?
    split
    · rename_i more
      cases noPoint '.' rfl
    · rfl
  | @present digits digital =>
    obtain ⟨nonempty, all⟩ := digital
    rw [List.map_cons, List.cons_append, scanFraction?, spanDigits_digits all stops]
    split
    · rename_i same
      cases same
      exact absurd rfl nonempty
    · rename_i same
      cases same
      rfl

theorem scanSign_digits {digits : List Char} (digital : Digits digits) (rest : List Symbol) :
    scanSign (digits.map some ++ rest) = (false, digits.map some ++ rest) := by
  obtain ⟨nonempty, all⟩ := digital
  cases digits with
  | nil => exact absurd rfl nonempty
  | cons c digits =>
    have digit := all c List.mem_cons_self
    rw [List.map_cons, List.cons_append]
    unfold scanSign
    split
    · rename_i same
      cases same
      cases digit
    · rename_i same
      cases same
      cases digit
    · rfl

theorem scanExponent?_exponentText {exponent : Option (Bool × List Char)} {text : List Char}
    {rest : List Symbol} (written : ExponentText exponent text) (stops : Stops Char.isDigit rest)
    (noMark : Stops (fun c => c == 'e' || c == 'E') rest) :
    scanExponent? (text.map some ++ rest) = some (exponent, rest) := by
  cases written with
  | absent =>
    cases rest with
    | nil => rfl
    | cons symbol rest =>
      rw [List.map_nil, List.nil_append, scanExponent?, if_neg]
      rintro (rfl | rfl)
      · cases noMark 'e' rfl
      · cases noMark 'E' rfl
  | @present mark negative sign digits marked signed digital =>
    have signs : scanSign ((sign ++ digits).map some ++ rest) =
        (negative, digits.map some ++ rest) := by
      simp only [List.mem_cons, Prod.mk.injEq, List.not_mem_nil, or_false] at signed
      rcases signed with ⟨rfl, rfl⟩ | ⟨rfl, rfl⟩ | ⟨rfl, rfl⟩
      · exact scanSign_digits digital rest
      · rfl
      · rfl
    have isMark : some mark = some 'e' ∨ some mark = some 'E' := by simpa using marked
    rw [List.map_cons, List.cons_append, scanExponent?, if_pos isMark, signs,
      spanDigits_digits digital.2 stops]
    split
    · rename_i same
      cases same
      exact absurd rfl digital.1
    · rename_i same
      cases same
      rfl

/-- What a numeral would go on with. -/
def extendsNumeral (c : Char) : Bool := c.isDigit || c == '.' || c == 'e' || c == 'E'

theorem ExponentText.stops {exponent : Option (Bool × List Char)} {text : List Char}
    {rest : List Symbol} (written : ExponentText exponent text) (stops : Stops extendsNumeral rest) :
    Stops (fun c => c.isDigit || c == '.') (text.map some ++ rest) := by
  cases written with
  | absent => exact stops.of_imp fun c holds => by simp_all [extendsNumeral]
  | present marked =>
    rintro c same
    cases same
    simp only [List.mem_cons, List.not_mem_nil, or_false] at marked
    rcases marked with rfl | rfl <;> rfl

theorem FractionText.stops {fraction : Option (List Char)} {text : List Char} {rest : List Symbol}
    (written : FractionText fraction text) (stops : Stops Char.isDigit rest) :
    Stops Char.isDigit (text.map some ++ rest) := by
  cases written with
  | absent => exact stops
  | present =>
    rintro c same
    cases same
    rfl

/-- A numeral is read to its end. -/
theorem scanNumeral?_numeralText {n : Numeral} {text : List Char} {rest : List Symbol}
    (written : NumeralText n text) (stops : Stops extendsNumeral rest) :
    scanNumeral? (text.map some ++ rest) = some (n, rest) := by
  obtain ⟨negative, whole, fraction, exponent⟩ := n
  obtain ⟨wholeText, point, mark, fractionText, exponentText, rfl⟩ := written
  dsimp only at wholeText fractionText exponentText ⊢
  have afterPoint := exponentText.stops stops
  have afterWhole := fractionText.stops (afterPoint.of_imp fun c digit => by simp [digit])
  have unsigned (negative : Bool) :
      scanUnsigned? negative ((whole ++ (point ++ mark)).map some ++ rest) =
        some (⟨negative, whole, fraction, exponent⟩, rest) := by
    unfold scanUnsigned?
    simp only [List.map_append, List.append_assoc]
    rw [scanWhole?_wholeText wholeText afterWhole]
    simp only [Option.bind_eq_bind, Option.bind_some]
    rw [scanFraction?_fractionText fractionText
      (afterPoint.of_imp fun c digit => by simp [digit])
      (afterPoint.of_imp fun c point => by simp [point])]
    simp only [Option.bind_some]
    rw [scanExponent?_exponentText exponentText (stops.of_imp fun c digit => by
        simp [extendsNumeral, digit])
      (stops.of_imp fun c mark => by simp_all [extendsNumeral, or_assoc])]
    rfl
  cases negative with
  | true => exact unsigned true
  | false =>
    have first := unsigned false
    obtain ⟨⟨nonempty, all⟩, _⟩ := wholeText
    cases whole with
    | nil => exact absurd rfl nonempty
    | cons c whole =>
      have digit := all c List.mem_cons_self
      have noMinus : c ≠ '-' := by
        rintro rfl
        cases digit
      rw [if_neg Bool.false_ne_true, List.nil_append]
      unfold scanNumeral?
      split
      · rename_i same
        cases same
        exact absurd rfl noMinus
      · exact first

theorem NumeralText.first {n : Numeral} {text : List Char} (written : NumeralText n text) :
    ∃ c more, text = c :: more ∧ (c = '-' ∨ c.isDigit = true) := by
  obtain ⟨⟨⟨nonempty, all⟩, _⟩, _, _, _, _, rfl⟩ := written
  cases n.negative with
  | true => exact ⟨'-', _, rfl, .inl rfl⟩
  | false =>
    cases whole : n.whole with
    | nil => exact absurd whole nonempty
    | cons c digits =>
      exact ⟨c, _, rfl, .inr (all c (by rw [whole]; exact List.mem_cons_self))⟩

end BoardRules.Json
