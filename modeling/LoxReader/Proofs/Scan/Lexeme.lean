import LoxReader.Cursor
import LoxReader.Proofs.Scan.Numeral

/-! # Lexemes

Each class of lexemes has its own rule for where a lexeme ends. The lexeme that is split off a
text is the one that these rules allow, and its token or error depends only on the lexeme and
its line. -/

namespace LoxReader

open Number Text

/-! ## The characters that start a lexeme -/

/-- The characters that start a lexeme of some class. -/
def StartsLexeme (c : Char) : Prop :=
  c ∈ TokenKind.singles.map Prod.fst ∨ c ∈ TokenKind.compounds.map Prod.fst ∨
    c = doubleQuote ∨ c.isDigit = true ∨ startsWord c = true

theorem lookup_eq_none {α β : Type} [BEq α] [LawfulBEq α] {table : List (α × β)} {key : α}
    (h : key ∉ table.map Prod.fst) : table.lookup key = none := by
  rw [List.lookup_eq_none_iff]
  intro entry hentry
  rw [bne_iff_ne]
  rintro rfl
  exact h (List.mem_map_of_mem hentry)

theorem singles_spec : ∀ p ∈ TokenKind.singles,
    p.2.text.toList = [p.1] ∧ TokenKind.singles.lookup p.1 = some p.2 := by
  decide

theorem compounds_spec : ∀ p ∈ TokenKind.compounds,
    p.2.1.text.toList = [p.1] ∧ p.2.2.text.toList = [p.1, '='] ∧
      TokenKind.singles.lookup p.1 = none ∧ TokenKind.compounds.lookup p.1 = some p.2 := by
  decide

theorem lookup_doubleQuote :
    TokenKind.singles.lookup doubleQuote = none ∧
      TokenKind.compounds.lookup doubleQuote = none := by
  decide

/-- The characters of the symbols start no number and no word. -/
theorem symbols_disjoint :
    (∀ c ∈ TokenKind.singles.map Prod.fst, c.isDigit = false ∧ startsWord c = false) ∧
      ∀ c ∈ TokenKind.compounds.map Prod.fst, c.isDigit = false ∧ startsWord c = false := by
  constructor
  · rw [List.forall_mem_map]
    decide
  · rw [List.forall_mem_map]
    decide

theorem inRanges_of_lt {low high n : Nat} {ranges : List (Nat × Nat)} (h : n < low) :
    inRanges ((low, high) :: ranges) n = false :=
  if_pos h

theorem startsWord_of_isDigit {c : Char} (h : c.isDigit = true) : startsWord c = false := by
  have hle : c.toNat ≤ 57 := by
    simp only [Char.isDigit, Bool.and_eq_true, decide_eq_true_eq] at h
    exact h.2
  have hletter : isLetter c = false := by
    rw [isLetter, if_pos (by omega)]
    exact inRanges_of_lt (by omega)
  have hunderscore : c ≠ '_' := by
    rintro rfl
    cases h
  simp [startsWord, hletter, hunderscore]

theorem lookup_of_isDigit {c : Char} (h : c.isDigit = true) :
    TokenKind.singles.lookup c = none ∧ TokenKind.compounds.lookup c = none := by
  refine ⟨lookup_eq_none fun hc => ?_, lookup_eq_none fun hc => ?_⟩
  · simp [symbols_disjoint.1 c hc] at h
  · simp [symbols_disjoint.2 c hc] at h

theorem lookup_of_startsWord {c : Char} (h : startsWord c = true) :
    TokenKind.singles.lookup c = none ∧ TokenKind.compounds.lookup c = none := by
  refine ⟨lookup_eq_none fun hc => ?_, lookup_eq_none fun hc => ?_⟩
  · simp [symbols_disjoint.1 c hc] at h
  · simp [symbols_disjoint.2 c hc] at h

namespace Lexeme

/-! ## Where a lexeme ends -/

/-- A lexeme in front of `rest` that is the longest one of its class. -/
inductive IsLongest (rest : List Char) : Lexeme → Prop where
  | single {c kind} : (c, kind) ∈ TokenKind.singles → IsLongest rest (.symbol kind)
  | compound {c alone withEqual} : (c, alone, withEqual) ∈ TokenKind.compounds →
      IsLongest rest (.symbol withEqual)
  | alone {c alone withEqual} : (c, alone, withEqual) ∈ TokenKind.compounds →
      rest.head? ≠ some '=' → IsLongest rest (.symbol alone)
  | string {body} : doubleQuote ∉ body → IsLongest rest (.string body)
  | openString {body} : doubleQuote ∉ body → rest = [] → IsLongest rest (.openString body)
  | number {first run} : first.isDigit = true → (∀ c ∈ run, continuesNumber c = true) →
      (∀ c ∈ rest.head?, continuesNumber c = false) → IsLongest rest (.number (first :: run))
  | word {first letters} : startsWord first = true → (∀ c ∈ letters, continuesWord c = true) →
      (∀ c ∈ rest.head?, continuesWord c = false) → IsLongest rest (.word (first :: letters))
  | stray {c} : ¬ StartsLexeme c → IsLongest rest (.stray c)

theorem not_doubleQuote_iff {body : List Char} :
    doubleQuote ∉ body ↔ ∀ c ∈ body, (c != doubleQuote) = true := by
  simp only [bne_iff_ne]
  exact ⟨fun h c hc heq => h (heq ▸ hc), fun h hc => h _ hc rfl⟩

/-- The longest lexeme of its class is split off in front of what follows it. -/
theorem IsLongest.split {l : Lexeme} {rest : List Char} (h : l.IsLongest rest) :
    ∃ first tail, l.text ++ rest = first :: tail ∧ Lexeme.split first tail = (l, rest) := by
  cases h with
  | @single c kind hmem =>
    obtain ⟨htext, hlookup⟩ := singles_spec _ hmem
    refine ⟨c, rest, by rw [text, htext]; rfl, ?_⟩
    simp only [Lexeme.split, hlookup]
  | @compound c alone withEqual hmem =>
    obtain ⟨-, htext, hnone, hlookup⟩ := compounds_spec _ hmem
    refine ⟨c, '=' :: rest, by rw [text, htext]; rfl, ?_⟩
    simp only [Lexeme.split, hnone, hlookup]
  | @alone c alone withEqual hmem hhead =>
    obtain ⟨htext, -, hnone, hlookup⟩ := compounds_spec _ hmem
    refine ⟨c, rest, by rw [text, htext]; rfl, ?_⟩
    simp only [Lexeme.split, hnone, hlookup]
    split
    · exact absurd rfl hhead
    · rfl
  | @string body hbody =>
    have hstop : ∀ c ∈ (doubleQuote :: rest).head?, (c != doubleQuote) = false := by
      intro c hc
      obtain rfl := Option.some.inj hc
      exact bne_self_eq_false _
    rw [not_doubleQuote_iff] at hbody
    refine ⟨doubleQuote, body ++ doubleQuote :: rest, by simp [text], ?_⟩
    simp only [Lexeme.split, lookup_doubleQuote, if_true, takeWhile_append_of_stop hbody hstop,
      dropWhile_append_of_stop hbody hstop]
  | @openString body hbody hrest =>
    subst hrest
    have hstop : ∀ c ∈ ([] : List Char).head?, (c != doubleQuote) = false := by simp
    rw [not_doubleQuote_iff] at hbody
    refine ⟨doubleQuote, body ++ [], rfl, ?_⟩
    simp only [Lexeme.split, lookup_doubleQuote, if_true, takeWhile_append_of_stop hbody hstop,
      dropWhile_append_of_stop hbody hstop]
  | @number first run hfirst hrun hrest =>
    have hquote : first ≠ doubleQuote := by
      rintro rfl
      cases hfirst
    refine ⟨first, run ++ rest, rfl, ?_⟩
    simp only [Lexeme.split, lookup_of_isDigit hfirst, if_neg hquote, if_pos hfirst,
      takeWhile_append_of_stop hrun hrest, dropWhile_append_of_stop hrun hrest]
  | @word first letters hfirst hletters hrest =>
    have hquote : first ≠ doubleQuote := by
      rintro rfl
      revert hfirst
      decide
    have hdigit : ¬ first.isDigit = true := by
      intro hdigit
      rw [startsWord_of_isDigit hdigit] at hfirst
      cases hfirst
    refine ⟨first, letters ++ rest, rfl, ?_⟩
    simp only [Lexeme.split, lookup_of_startsWord hfirst, if_neg hquote, if_neg hdigit,
      if_pos hfirst, takeWhile_append_of_stop hletters hrest,
      dropWhile_append_of_stop hletters hrest]
  | @stray c hc =>
    simp only [StartsLexeme, not_or] at hc
    obtain ⟨hsingle, hcompound, hquote, hdigit, hword⟩ := hc
    refine ⟨c, rest, rfl, ?_⟩
    simp only [Lexeme.split, lookup_eq_none hsingle, lookup_eq_none hcompound, if_neg hquote,
      if_neg hdigit, if_neg hword]

theorem IsLongest.text_ne_nil {l : Lexeme} {rest : List Char} (h : l.IsLongest rest) :
    l.text ≠ [] := by
  cases h with
  | single hmem => simp [text, (singles_spec _ hmem).1]
  | compound hmem => simp [text, (compounds_spec _ hmem).2.1]
  | alone hmem => simp [text, (compounds_spec _ hmem).1]
  | _ => simp [text]

theorem IsLongest.unique {l l' : Lexeme} {rest rest' : List Char} (h : l.IsLongest rest)
    (h' : l'.IsLongest rest') (heq : l.text ++ rest = l'.text ++ rest') :
    l = l' ∧ rest = rest' := by
  obtain ⟨first, tail, htext, hsplit⟩ := h.split
  obtain ⟨first', tail', htext', hsplit'⟩ := h'.split
  rw [heq, htext', List.cons.injEq] at htext
  obtain ⟨rfl, rfl⟩ := htext
  rw [hsplit'] at hsplit
  exact Prod.mk.inj hsplit.symm

/-- Some lexeme is the longest of its class at the front of a text. -/
theorem exists_isLongest (first : Char) (tail : List Char) :
    ∃ l rest, IsLongest rest l ∧ l.text ++ rest = first :: tail := by
  by_cases hstart : StartsLexeme first
  · rcases hstart with hsingle | hcompound | rfl | hdigit | hword
    · obtain ⟨⟨c, kind⟩, hmem, rfl⟩ := List.mem_map.mp hsingle
      have htext := (singles_spec _ hmem).1
      exact ⟨.symbol kind, tail, .single hmem, by rw [text, htext]; rfl⟩
    · obtain ⟨⟨c, alone, withEqual⟩, hmem, rfl⟩ := List.mem_map.mp hcompound
      obtain ⟨halone, hequal, -⟩ := compounds_spec _ hmem
      by_cases hhead : tail.head? = some '='
      · obtain ⟨rest, rfl⟩ := List.head?_eq_some_iff.mp hhead
        exact ⟨.symbol withEqual, rest, .compound hmem, by rw [text, hequal]; rfl⟩
      · exact ⟨.symbol alone, tail, .alone hmem hhead, by rw [text, halone]; rfl⟩
    · have hbody : doubleQuote ∉ tail.takeWhile (· != doubleQuote) := by
        intro hmem
        have hne := List.mem_takeWhile_imp hmem
        simp at hne
      have htail := List.takeWhile_append_dropWhile (p := (· != doubleQuote)) (l := tail)
      cases hdrop : tail.dropWhile (· != doubleQuote) with
      | nil =>
        rw [hdrop] at htail
        exact ⟨.openString _, [], .openString hbody rfl, congrArg (doubleQuote :: ·) htail⟩
      | cons c rest =>
        have hc := head?_dropWhile_eq_false (· != doubleQuote) tail c (by rw [hdrop]; rfl)
        obtain rfl : c = doubleQuote := by simpa using hc
        rw [hdrop] at htail
        exact ⟨.string _, rest, .string hbody, by simpa [text] using htail⟩
    · exact ⟨.number (first :: tail.takeWhile continuesNumber), tail.dropWhile continuesNumber,
        .number hdigit (fun c hc => List.mem_takeWhile_imp hc) (head?_dropWhile_eq_false _ tail),
        congrArg (first :: ·) List.takeWhile_append_dropWhile⟩
    · exact ⟨.word (first :: tail.takeWhile continuesWord), tail.dropWhile continuesWord,
        .word hword (fun c hc => List.mem_takeWhile_imp hc) (head?_dropWhile_eq_false _ tail),
        congrArg (first :: ·) List.takeWhile_append_dropWhile⟩
  · exact ⟨.stray first, tail, .stray hstart, rfl⟩

/-! ## What a lexeme yields -/

/-- The token of a well-formed lexeme, and the error of a malformed one. -/
inductive Yields (line : Int) : Lexeme → Except LexicalError Token → Prop where
  | symbol {kind} : Yields line (.symbol kind) (.ok ⟨kind, line, none⟩)
  | string {body} :
      Yields line (.string body) (.ok ⟨.string, line, some (.text (String.ofList body))⟩)
  | openString {body} : Yields line (.openString body) (.error (.unterminatedString line))
  | numeral {n : Numeral} : n.WellFormed →
      Yields line (.number n.spelling) (.ok ⟨.number, line, some (.number n.toDecimal.toBinary64)⟩)
  | malformed {run} : (∀ n : Numeral, n.WellFormed → n.spelling ≠ run) →
      Yields line (.number run) (.error (.malformedNumber (String.ofList run) line))
  | keyword {kind} : kind ∈ TokenKind.keywords →
      Yields line (.word kind.text.toList) (.ok ⟨kind, line, none⟩)
  | identifier {letters} : (∀ kind ∈ TokenKind.keywords, kind.text.toList ≠ letters) →
      Yields line (.word letters) (.ok ⟨.identifier, line, some (.text (String.ofList letters))⟩)
  | stray {c} : Yields line (.stray c) (.error (.unknownCharacter c line))

theorem keyword?_text : ∀ kind ∈ TokenKind.keywords,
    TokenKind.keyword? kind.text = some kind := by
  decide

theorem keyword?_eq_some {word : String} {kind : TokenKind}
    (h : TokenKind.keyword? word = some kind) : kind ∈ TokenKind.keywords ∧ kind.text = word := by
  have htext := List.find?_some h
  rw [beq_iff_eq] at htext
  exact ⟨List.mem_of_find?_eq_some h, htext⟩

theorem Yields.outcome {line : Int} {l : Lexeme} {o : Except LexicalError Token}
    (h : l.Yields line o) : l.outcome line = o := by
  cases h with
  | symbol => rfl
  | string => rfl
  | openString => rfl
  | @numeral n hn =>
    have hread := Numeral.read?_eq_some_iff.mpr ⟨hn, rfl⟩
    simp only [Lexeme.outcome, hread]
  | @malformed run hrun =>
    have hread : Numeral.read? run = none := by
      rw [Option.eq_none_iff_forall_ne_some]
      intro n hread
      obtain ⟨hn, hspelling⟩ := Numeral.read?_eq_some_iff.mp hread
      exact hrun n hn hspelling
    simp only [Lexeme.outcome, hread]
  | @keyword kind hkind =>
    simp only [Lexeme.outcome, String.ofList_toList, keyword?_text kind hkind]
  | @identifier letters hletters =>
    have hword : TokenKind.keyword? (String.ofList letters) = none := by
      rw [Option.eq_none_iff_forall_ne_some]
      intro kind hkind
      obtain ⟨hmem, htext⟩ := keyword?_eq_some hkind
      exact hletters kind hmem (by rw [htext, String.toList_ofList])
    simp only [Lexeme.outcome, hword]
  | stray => rfl

theorem yields_outcome (line : Int) (l : Lexeme) : l.Yields line (l.outcome line) := by
  cases l with
  | symbol kind => exact .symbol
  | string body => exact .string
  | openString body => exact .openString
  | number run =>
    simp only [outcome]
    split
    · next n hread =>
      obtain ⟨hn, rfl⟩ := Numeral.read?_eq_some_iff.mp hread
      exact .numeral hn
    · next hread =>
      refine .malformed fun n hn hspelling => ?_
      rw [Numeral.read?_eq_some_iff.mpr ⟨hn, hspelling⟩] at hread
      cases hread
  | word letters =>
    simp only [outcome]
    split
    · next kind hkind =>
      obtain ⟨hmem, htext⟩ := keyword?_eq_some hkind
      have hletters : letters = kind.text.toList := by rw [htext, String.toList_ofList]
      exact hletters ▸ .keyword hmem
    · next hword =>
      refine .identifier fun kind hmem htext => ?_
      rw [← htext, String.ofList_toList, keyword?_text kind hmem] at hword
      cases hword
  | stray c => exact .stray

/-- The outcome of a lexeme is the only thing that it yields. -/
theorem yields_iff {line : Int} {l : Lexeme} {o : Except LexicalError Token} :
    l.Yields line o ↔ l.outcome line = o :=
  ⟨Yields.outcome, fun h => h ▸ yields_outcome line l⟩

end Lexeme

end LoxReader
