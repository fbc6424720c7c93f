import LoxReader.Proofs.Scan.Dissection

/-! # Separate lexemes

A lexeme in front of a blank ends there, whatever its class. So lexemes with single blanks between
them are scanned as they are, and none of them joins the next one. -/

namespace LoxReader

open Number Text

/-! ## Characters that are not blank -/

theorem exists_range_of_inRanges {ranges : List (Nat × Nat)} {n : Nat}
    (h : inRanges ranges n = true) : ∃ range ∈ ranges, range.1 ≤ n ∧ n ≤ range.2 := by
  induction ranges with
  | nil => cases h
  | cons range ranges ih =>
    rw [inRanges] at h
    by_cases hlow : n < range.1
    · rw [if_pos hlow] at h
      cases h
    · rw [if_neg hlow] at h
      by_cases hhigh : n ≤ range.2
      · exact ⟨range, List.mem_cons_self, Nat.le_of_not_lt hlow, hhigh⟩
      · rw [if_neg hhigh] at h
        obtain ⟨range', hmem, hrange⟩ := ih h
        exact ⟨range', List.mem_cons_of_mem range hmem, hrange⟩

/-- No letter is blank: the code points of the blanks are few enough to look each of them up. -/
theorem isLetter_of_isBlank {c : Char} (h : isBlank c = true) : isLetter c = false := by
  have hlow : ∀ range ∈ blankRanges, ∀ k ≤ range.2 - range.1, range.1 + k < 0x3000 →
      inRanges letterRangesLow (range.1 + k) = false := by decide +kernel
  have hmiddle : ∀ range ∈ blankRanges, ∀ k ≤ range.2 - range.1, 0x3000 ≤ range.1 + k →
      range.1 + k < 0x10000 ∧ inRanges letterRangesMiddle (range.1 + k) = false := by
    decide +kernel
  obtain ⟨range, hmem, hfrom, hto⟩ := exists_range_of_inRanges h
  obtain ⟨k, hk⟩ := Nat.exists_eq_add_of_le hfrom
  have hle : k ≤ range.2 - range.1 := by omega
  rw [isLetter, hk]
  by_cases hbelow : range.1 + k < 0x3000
  · rw [if_pos hbelow]
    exact hlow range hmem k hle hbelow
  · obtain ⟨hbound, hletter⟩ := hmiddle range hmem k hle (Nat.le_of_not_lt hbelow)
    rw [if_neg hbelow, if_pos hbound]
    exact hletter

theorem isBlank_of_startsWord {c : Char} (h : startsWord c = true) : isBlank c = false := by
  rw [Bool.eq_false_iff]
  intro hblank
  rw [startsWord, isLetter_of_isBlank hblank, Bool.false_or, decide_eq_true_eq] at h
  rw [h] at hblank
  exact absurd hblank (by decide)

theorem isBlank_of_isDigit {c : Char} (h : c.isDigit = true) : isBlank c = false := by
  simp only [Char.isDigit, Bool.and_eq_true, decide_eq_true_eq] at h
  have hlow : 48 ≤ c.toNat := h.1
  have hhigh : c.toNat ≤ 57 := h.2
  rw [isBlank, blankRanges, inRanges, if_neg (by omega), if_neg (by omega), inRanges,
    if_neg (by omega), if_neg (by omega)]
  exact inRanges_of_lt (by omega)

theorem isBlank_of_continuesNumber {c : Char} (h : continuesNumber c = true) :
    isBlank c = false := by
  simp only [continuesNumber, Bool.or_eq_true, decide_eq_true_eq] at h
  rcases h with (h | rfl) | h
  · exact isBlank_of_isDigit h
  · decide
  · exact isBlank_of_startsWord (by simp [startsWord, h])

theorem isBlank_of_continuesWord {c : Char} (h : continuesWord c = true) : isBlank c = false := by
  simp only [continuesWord, Bool.or_eq_true] at h
  rcases h with h | h
  · exact isBlank_of_startsWord h
  · exact isBlank_of_isDigit h

/-! ## Lexemes in front of a blank -/

namespace Lexeme

/-- A lexeme that is scanned as it is when a blank or nothing follows it: it ends there, and it does
not start a gap. -/
def Separate (l : Lexeme) : Prop :=
  ∀ rest : List Char, (∀ c ∈ rest.head?, c = ' ') →
    l.IsLongest rest ∧ splitGap false (l.text ++ rest) = ([], l.text ++ rest)

theorem separate_of_cons {l : Lexeme} {c : Char} {text : List Char} (htext : l.text = c :: text)
    (hc : isBlank c = false) (hslash : c = '/' → text = [])
    (h : ∀ rest : List Char, (∀ c ∈ rest.head?, c = ' ') → l.IsLongest rest) : l.Separate := by
  intro rest hrest
  refine ⟨h rest hrest, ?_⟩
  rw [htext, List.cons_append]
  refine splitGap_cons_iff.mpr ⟨hc, ?_⟩
  rintro ⟨heq, hnext⟩
  rw [hslash heq, List.nil_append] at hnext
  exact absurd (hrest '/' hnext) (by decide)

theorem separate_single : ∀ p ∈ TokenKind.singles, (symbol p.2).Separate := by
  intro p hp
  have hblank : ∀ p ∈ TokenKind.singles, isBlank p.1 = false := by decide
  exact separate_of_cons (singles_spec p hp).1 (hblank p hp) (fun _ => rfl) fun _ _ => .single hp

/-- In front of a blank no equals sign follows, so both symbols with the same first character end
there. -/
theorem separate_compound : ∀ p ∈ TokenKind.compounds,
    (symbol p.2.1).Separate ∧ (symbol p.2.2).Separate := by
  intro p hp
  have hstart : ∀ p ∈ TokenKind.compounds, isBlank p.1 = false ∧ p.1 ≠ '/' := by decide
  obtain ⟨hblank, hslash⟩ := hstart p hp
  obtain ⟨halone, hequal, -⟩ := compounds_spec p hp
  constructor
  · refine separate_of_cons halone hblank (fun _ => rfl) fun rest hrest => .alone hp ?_
    exact fun hhead => absurd (hrest '=' hhead) (by decide)
  · exact separate_of_cons hequal hblank (fun heq => absurd heq hslash) fun _ _ => .compound hp

/-- The kinds that are written as symbols. -/
theorem separate_symbol {kind : TokenKind}
    (h : (∃ p ∈ TokenKind.singles, p.2 = kind) ∨
      ∃ p ∈ TokenKind.compounds, p.2.1 = kind ∨ p.2.2 = kind) : (symbol kind).Separate := by
  rcases h with ⟨p, hp, rfl⟩ | ⟨p, hp, rfl | rfl⟩
  · exact separate_single p hp
  · exact (separate_compound p hp).1
  · exact (separate_compound p hp).2

theorem separate_string {body : List Char} (h : doubleQuote ∉ body) : (string body).Separate :=
  separate_of_cons rfl (by decide) (fun heq => absurd heq (by decide)) fun _ _ => .string h

theorem separate_word {first : Char} {letters : List Char} (hfirst : startsWord first = true)
    (hletters : ∀ c ∈ letters, continuesWord c = true) : (word (first :: letters)).Separate := by
  refine separate_of_cons rfl (isBlank_of_startsWord hfirst) ?_ fun rest hrest =>
    .word hfirst hletters ?_
  · rintro rfl
    exact absurd hfirst (by decide)
  · intro c hc
    obtain rfl := hrest c hc
    decide

theorem separate_number {first : Char} {run : List Char} (hfirst : first.isDigit = true)
    (hrun : ∀ c ∈ run, continuesNumber c = true) : (number (first :: run)).Separate := by
  refine separate_of_cons rfl (isBlank_of_isDigit hfirst) ?_ fun rest hrest =>
    .number hfirst hrun ?_
  · rintro rfl
    exact absurd hfirst (by decide)
  · intro c hc
    obtain rfl := hrest c hc
    decide

/-- A numeral has no signs, so its characters are all of one run. -/
theorem continuesNumber_of_mem_spelling {n : Numeral} (hn : n.WellFormed) {c : Char}
    (h : c ∈ n.spelling) : continuesNumber c = true := by
  have hdigit {c : Char} (h : c.isDigit = true) : continuesNumber c = true := by
    rw [continuesNumber, h, Bool.true_or, Bool.true_or]
  obtain ⟨⟨-, hwhole⟩, hfraction, hexponent⟩ := hn
  rw [Numeral.spelling_eq, List.mem_append, List.mem_append] at h
  rcases h with h | h | h
  · exact hdigit (hwhole c h)
  · cases hn : n.fraction with
    | none =>
      rw [hn] at h
      cases h
    | some digits =>
      rw [hn] at h
      rcases List.mem_cons.mp h with rfl | h
      · decide
      · exact hdigit (hfraction digits hn c h)
  · cases hn : n.exponent with
    | none =>
      rw [hn] at h
      cases h
    | some part =>
      obtain ⟨hmark, -, hdigits⟩ := hexponent part hn
      rw [hn] at h
      rcases List.mem_cons.mp h with rfl | h
      · simp only [Numeral.isMark, Bool.or_eq_true, decide_eq_true_eq] at hmark
        rcases hmark with hmark | hmark <;> rw [hmark] <;> decide
      · exact hdigit (hdigits c h)

theorem separate_numeral {n : Numeral} (hn : n.WellFormed) : (number n.spelling).Separate := by
  obtain ⟨hne, hwhole⟩ := hn.1
  obtain ⟨first, digits, hdigits⟩ := List.exists_cons_of_ne_nil hne
  have hfirst : first.isDigit = true := by
    apply hwhole
    rw [hdigits]
    exact List.mem_cons_self
  obtain ⟨run, hrun⟩ : ∃ run, n.spelling = first :: run := by
    rw [Numeral.spelling_eq, hdigits]
    exact ⟨_, rfl⟩
  rw [hrun]
  apply separate_number hfirst
  intro c hc
  apply continuesNumber_of_mem_spelling hn
  rw [hrun]
  exact List.mem_cons_of_mem _ hc

/-- Every well-formed lexeme of a scan is separate. -/
theorem Yields.separate {l : Lexeme} {line : Int} {t : Token} (h : l.Yields line (.ok t))
    {rest : List Char} (hl : l.IsLongest rest) : l.Separate := by
  cases hl with
  | single hmem => exact separate_single _ hmem
  | compound hmem => exact (separate_compound _ hmem).2
  | alone hmem => exact (separate_compound _ hmem).1
  | string hbody => exact separate_string hbody
  | number hfirst hrun => exact separate_number hfirst hrun
  | word hfirst hletters => exact separate_word hfirst hletters
  | openString | stray => cases h

end Lexeme

/-! ## Lexemes with blanks between them -/

theorem toList_intercalate_cons (separator s : String) (ss : List String) :
    (separator.intercalate (s :: ss)).toList =
      s.toList ++ ss.flatMap fun t => separator.toList ++ t.toList := by
  induction ss generalizing s with
  | nil => simp
  | cons t ss ih =>
    rw [String.intercalate_cons_cons, String.toList_append, String.toList_append, ih,
      List.flatMap_cons, List.append_assoc, List.append_assoc]

/-- The texts of lexemes with single blanks between them. -/
def spaced : List Lexeme → List Char
  | [] => []
  | l :: ls => l.text ++ ls.flatMap fun l => ' ' :: l.text

theorem isLongestGap_nil {l : Lexeme} (h : l.Separate) {rest : List Char}
    (hrest : ∀ c ∈ rest.head?, c = ' ') : IsLongestGap [] (l.text ++ rest) :=
  isLongestGap_iff.mpr (h rest hrest).2

theorem isLongestGap_blank {l : Lexeme} (h : l.Separate) {rest : List Char}
    (hrest : ∀ c ∈ rest.head?, c = ' ') : IsLongestGap [' '] (l.text ++ rest) := by
  have hblank : isBlank ' ' = true := by decide
  rw [isLongestGap_iff]
  simp [splitGap, hblank, (h rest hrest).2]

theorem head?_flatMap_blank (ls : List Lexeme) :
    ∀ c ∈ (ls.flatMap fun l => ' ' :: l.text).head?, c = ' ' := by
  intro c hc
  cases ls with
  | nil => cases hc
  | cons l ls => exact (Option.some.inj hc).symm

/-- Separate lexemes with a blank in front of each are taken apart at the blanks. -/
theorem dissects_flatMap_blank {ls : List Lexeme} (h : ∀ l ∈ ls, l.Separate) :
    Dissects (ls.flatMap fun l => ' ' :: l.text) (ls.map fun l => ([' '], l)) [] := by
  induction ls with
  | nil => exact .stop (isLongestGap_iff.mpr rfl)
  | cons l ls ih =>
    have hl := h l List.mem_cons_self
    have hhead := head?_flatMap_blank ls
    exact .piece (isLongestGap_blank hl hhead) (hl _ hhead).1
      (ih fun l' hl' => h l' (List.mem_cons_of_mem l hl'))

theorem exists_dissects_spaced {ls : List Lexeme} (h : ∀ l ∈ ls, l.Separate) :
    ∃ pieces last, Dissects (spaced ls) pieces last ∧ pieces.map Prod.snd = ls := by
  cases ls with
  | nil => exact ⟨[], [], .stop (isLongestGap_iff.mpr rfl), rfl⟩
  | cons l ls =>
    have hl := h l List.mem_cons_self
    have hls : ∀ l' ∈ ls, l'.Separate := fun l' hl' => h l' (List.mem_cons_of_mem l hl')
    have hhead := head?_flatMap_blank ls
    exact ⟨_, _, .piece (isLongestGap_nil hl hhead) (hl _ hhead).1 (dissects_flatMap_blank hls),
      by simp [Function.comp_def]⟩

/-! ## Their tokens -/

/-- A source whose lexemes are all well-formed has their tokens. -/
theorem tokenize_of_dissects {source : String} {pieces : List (List Char × Lexeme)}
    {last : List Char} (h : Dissects source.toList pieces last) {ts : List Token}
    (hts : (placed 1 pieces).map (fun p => p.2.outcome p.1) = ts.map .ok) :
    tokenize source = .ok (ts ++ [.endOn (1 + newlines source.toList)]) := by
  have hrun : (Cursor.atStart source.toList).run =
      ((placed 1 pieces).map fun p => p.2.outcome p.1, _) := h.run (.atStart source.toList) rfl
  rw [hts] at hrun
  simp only [tokenize, scan, hrun, errorsOf_map_ok, dif_pos, Scan.allTokens, tokensOf_map_ok]
  rfl

/-- A text is scanned as one lexeme, which becomes a token with a given property. -/
structure Lexeme.Spells (l : Lexeme) (text : String) (reads : Token → Prop) : Prop where
  separate : l.Separate
  text_eq : l.text = text.toList
  exists_token : ∀ line, ∃ t, l.outcome line = .ok t ∧ reads t

section

variable {α : Type} {display : α → String} {reads : Token → α → Prop} {xs : List α}

theorem toList_intercalate_eq_spaced {lexeme : α → Lexeme}
    (h : ∀ x ∈ xs, (lexeme x).text = (display x).toList) :
    (" ".intercalate (xs.map display)).toList = spaced (xs.map lexeme) := by
  cases xs with
  | nil => rfl
  | cons x xs =>
    obtain ⟨hx, hxs⟩ := List.forall_mem_cons.mp h
    have hrest : xs.flatMap (fun x => ' ' :: (display x).toList) =
        xs.flatMap fun x => ' ' :: (lexeme x).text :=
      List.flatMap_congr fun x hx => congrArg (' ' :: ·) (hxs x hx).symm
    rw [List.map_cons, List.map_cons, toList_intercalate_cons, spaced, hx, List.flatMap_map,
      List.flatMap_map, ← hrest]
    rfl

/-- Pieces whose lexemes are each read in a given sense become tokens that are read so. -/
theorem exists_tokens {lexeme : α → Lexeme}
    (h : ∀ x ∈ xs, ∀ line, ∃ t, (lexeme x).outcome line = .ok t ∧ reads t x)
    {pieces : List (List Char × Lexeme)} (hpieces : pieces.map Prod.snd = xs.map lexeme)
    (line : Int) :
    ∃ ts : List Token, (placed line pieces).map (fun p => p.2.outcome p.1) = ts.map .ok ∧
      List.Forall₂ reads ts xs := by
  induction xs generalizing pieces line with
  | nil =>
    obtain rfl := List.map_eq_nil_iff.mp hpieces
    exact ⟨[], rfl, .nil⟩
  | cons x xs ih =>
    obtain ⟨⟨gap, l⟩, pieces, rfl, hl, hrest⟩ := List.map_eq_cons_iff.mp hpieces
    obtain rfl : l = lexeme x := hl
    obtain ⟨hx, hxs⟩ := List.forall_mem_cons.mp h
    obtain ⟨t, ht, hread⟩ := hx (line + newlines gap)
    obtain ⟨ts, hts, hreads⟩ := ih hxs hrest (line + newlines gap + newlines (lexeme x).text)
    refine ⟨t :: ts, ?_, .cons hread hreads⟩
    simp only [placed, List.map_cons, ht, hts]

/-- Texts that are each scanned as one lexeme become one token each when single blanks stand
between them. -/
theorem exists_tokenize_intercalate
    (h : ∀ x ∈ xs, ∃ l : Lexeme, l.Spells (display x) fun t => reads t x) :
    ∃ ts line, tokenize (" ".intercalate (xs.map display)) = .ok (ts ++ [.endOn line]) ∧
      List.Forall₂ reads ts xs := by
  have hlexeme : Nonempty Lexeme := ⟨.symbol .bang⟩
  choose! lexeme h using h
  have hseparate : ∀ l ∈ xs.map lexeme, l.Separate := by
    rw [List.forall_mem_map]
    exact fun x hx => (h x hx).separate
  obtain ⟨pieces, last, hdissects, hpieces⟩ := exists_dissects_spaced hseparate
  obtain ⟨ts, hts, hreads⟩ := exists_tokens (fun x hx => (h x hx).exists_token) hpieces 1
  rw [← toList_intercalate_eq_spaced fun x hx => (h x hx).text_eq] at hdissects
  exact ⟨ts, _, tokenize_of_dissects hdissects hts, hreads⟩

end

end LoxReader
