import XuleLang.Proofs.Token.Brackets
import XuleLang.Proofs.Token.Lexeme

/-!
Brackets decide how a text is read.

A text is scanned into tokens from its start on (`Scans`). Which lexeme is ahead is decided by the
tokens before it alone: where the innermost unmatched opener among them is a quote, the text of a
string literal is ahead, and program text is ahead elsewhere (`lexemeBehind?`). Nothing bounds how
much a scan leaves open, and no lexer is needed to tell what it is.

So the parts of a string literal stand where a quote is innermost, and nowhere else (`Reads`), and
what closes closes what is innermost (`Reads.closes`).
-/

namespace XuleLang

/-! ## Lexemes that open and close -/

namespace Lexeme

variable {cs : List Char} {quote : Char} {x : Lexeme}

/-- Program text begins with neither text of a string literal nor its end, and what opens or closes
in it is one character. -/
theorem ofChars?_brackets : ofChars? cs = some x →
    x.kind ≠ .stringContent ∧ x.kind ≠ .stringClose ∧
      (x.kind.opens = true ∨ x.kind.closes = true → x.length = 1) := by
  fun_cases ofChars? cs <;> intro read
  case case1 => cases read
  case case10 c rest _ _ _ _ _ _ _ _ _ =>
    cases read
    fun_cases ofWord (c :: rest) with
    | case1 => simp [TokenKind.opens, TokenKind.closes]
    | case2 =>
      unfold ofName
      split <;> simp [TokenKind.opens, TokenKind.closes]
  case case12 =>
    obtain ⟨p, -, rfl⟩ := Option.map_eq_some_iff.mp read
    refine ⟨by simp, by simp, ?_⟩
    cases p <;> decide
  all_goals cases read; simp [TokenKind.opens, TokenKind.closes]

/-- What the rest of a string literal begins with: its closing quote, a brace that opens, or text up
to one of these. -/
inductive InString (quote : Char) (cs : List Char) (x : Lexeme) : Prop
  | closes (kind : x.kind = .stringClose) (one : x.length = 1) (ahead : cs.head? = some quote)
  | opens (kind : x.kind = .punctuator .lbrace) (one : x.length = 1)
  | content (kind : x.kind = .stringContent) (runs : x.length = contentLength quote cs)
      (inside : ∀ c ∈ cs.head?, c ≠ quote ∧ c ≠ '\x7b')

theorem inString?_cases : inString? quote cs = some x → InString quote cs x := by
  fun_cases inString? quote cs <;> intro read <;> cases read
  case case2 c rest closes => exact .closes rfl rfl (by simpa using closes)
  case case3 => exact .opens rfl rfl
  case case4 c rest noQuote noBrace =>
    exact .content rfl rfl (by simpa using And.intro noQuote noBrace)

/-- A string literal goes on with every character. -/
theorem exists_inString? (quote c : Char) (cs : List Char) :
    ∃ x, inString? quote (c :: cs) = some x := by
  simp only [inString?]
  split
  · exact ⟨_, rfl⟩
  · split <;> exact ⟨_, rfl⟩

end Lexeme

/-! ## Scanning -/

/-- The lexeme that the characters ahead begin with behind the tokens `ts`. -/
def lexemeBehind? (ts : List Token) (cs : List Char) : Option Lexeme :=
  match unmatched ts with
  | [] => Lexeme.ofChars? cs
  | o :: _ => if o.kind = .stringOpen then Lexeme.inString? o.quote cs else Lexeme.ofChars? cs

/-- The token of a lexeme at an offset of a text, with its number. -/
def tokenAt (text : List Char) (index offset : Nat) (x : Lexeme) : Token :=
  { kind := x.kind
    text := String.ofList ((text.drop offset).take x.length)
    span := spanBetween text offset (offset + x.length)
    channel := if x.kind.isTrivia then .hidden else .visible
    index := index }

/-- The tokens that a text is scanned into up to an offset, where characters that begin no token are
skipped. -/
inductive Scans (text : List Char) : List Token → Nat → Prop
  | start : Scans text [] 0
  | skip {ts : List Token} {n : Nat} (scans : Scans text ts n) (inside : n < text.length)
      (nothing : lexemeBehind? ts (text.drop n) = none) : Scans text ts (n + 1)
  | read {ts : List Token} {n : Nat} {x : Lexeme} (scans : Scans text ts n)
      (ahead : lexemeBehind? ts (text.drop n) = some x) :
      Scans text (ts ++ [tokenAt text ts.length n x]) (n + x.length)

/-- An opener is scanned where as many as can be open are unmatched. -/
structure Overfull (text : List Char) (ts : List Token) (n : Nat) : Prop where
  scans : Scans text ts n
  opener : ∃ x, lexemeBehind? ts (text.drop n) = some x ∧ x.kind.opens = true
  full : (unmatched ts).length = maxOpen

variable {text : List Char} {ts : List Token} {n : Nat} {x : Lexeme} {t : Token}

/-- What is open behind tokens decides how text is read. -/
theorem lexemeBehind?_cases (ts : List Token) :
    (∃ o outer, unmatched ts = o :: outer ∧ o.kind = .stringOpen ∧
      ∀ cs, lexemeBehind? ts cs = Lexeme.inString? o.quote cs) ∨
    (∀ o ∈ (unmatched ts).head?, o.kind ≠ .stringOpen) ∧
      ∀ cs, lexemeBehind? ts cs = Lexeme.ofChars? cs := by
  unfold lexemeBehind?
  cases unmatched ts with
  | nil => exact .inr ⟨nofun, fun _ => rfl⟩
  | cons o outer =>
    by_cases string : o.kind = .stringOpen
    · exact .inl ⟨o, outer, rfl, string, by simp [string]⟩
    · exact .inr ⟨by simp [string], by simp [string]⟩

theorem lexemeBehind?_nil (ts : List Token) : lexemeBehind? ts [] = none := by
  obtain ⟨o, outer, -, -, same⟩ | ⟨-, same⟩ := lexemeBehind?_cases ts <;> exact same []

/-- A lexeme takes some of the characters that are ahead. -/
theorem lexemeBehind?_takes {cs : List Char} (ahead : lexemeBehind? ts cs = some x) :
    x.Takes cs := by
  obtain ⟨o, outer, -, -, same⟩ | ⟨-, same⟩ := lexemeBehind?_cases ts
  · exact Lexeme.inString?_takes ((same cs).symm.trans ahead)
  · exact Lexeme.ofChars?_takes ((same cs).symm.trans ahead)

/-- What opens or closes is one character. -/
theorem lexemeBehind?_length {cs : List Char} (ahead : lexemeBehind? ts cs = some x)
    (bracket : x.kind.opens = true ∨ x.kind.closes = true) : x.length = 1 := by
  obtain ⟨o, outer, -, -, same⟩ | ⟨-, same⟩ := lexemeBehind?_cases ts
  · cases Lexeme.inString?_cases ((same cs).symm.trans ahead) with
    | closes _ one => exact one
    | opens _ one => exact one
    | content kind => simp [kind, TokenKind.opens, TokenKind.closes] at bracket
  · exact (Lexeme.ofChars?_brackets ((same cs).symm.trans ahead)).2.2 bracket

namespace Scans

theorem inside (scans : Scans text ts n) : n ≤ text.length := by
  induction scans with
  | start => exact Nat.zero_le _
  | skip _ before => exact before
  | read _ ahead ih =>
    have available := (lexemeBehind?_takes ahead).available
    rw [List.length_drop] at available
    omega

/-- What stood before a token when it was scanned. -/
theorem exists_before (scans : Scans text ts n) {front back : List Token}
    (split : ts = front ++ t :: back) :
    ∃ m x, Scans text front m ∧ lexemeBehind? front (text.drop m) = some x ∧
      t = tokenAt text front.length m x := by
  induction scans generalizing back with
  | start => simp at split
  | skip _ _ _ ih => exact ih split
  | @read ts n x scans ahead ih =>
    rcases List.eq_nil_or_concat back with rfl | ⟨back, last, rfl⟩
    · obtain ⟨rfl, same⟩ := List.append_inj' split rfl
      cases same
      exact ⟨n, x, scans, ahead, rfl⟩
    · rw [List.concat_eq_append, ← List.cons_append, ← List.append_assoc] at split
      exact ih (List.append_inj' split rfl).1

/-- An opening quote is spelled as one. -/
theorem text_of_stringOpen {o : Token} (scans : Scans text ts n) (member : o ∈ ts)
    (string : o.kind = .stringOpen) :
    o.text = String.ofList [o.quote] ∧ (o.quote = '"' ∨ o.quote = '\x27') := by
  obtain ⟨front, back, split⟩ := List.append_of_mem member
  obtain ⟨m, x, -, ahead, rfl⟩ := scans.exists_before split
  have kind : x.kind = .stringOpen := string
  have one := lexemeBehind?_length ahead (.inl (by simp [kind, TokenKind.opens]))
  cases rest : text.drop m with
  | nil => rw [rest, lexemeBehind?_nil] at ahead; cases ahead
  | cons c cs =>
    have quote : (tokenAt text front.length m x).quote = c := by
      simp [tokenAt, Token.quote, one, rest]
    refine ⟨by rw [quote]; simp [tokenAt, one, rest], quote ▸ ?_⟩
    obtain ⟨_, _, -, -, same⟩ | ⟨-, same⟩ := lexemeBehind?_cases front
    · exact absurd kind (Lexeme.kind_ne_stringOpen_of_inString? ((same _).symm.trans ahead))
    · rw [same, rest] at ahead
      exact Lexeme.quote_of_ofChars? ahead kind

/-- Behind the text of a string literal stands its closing quote, a brace or nothing. -/
theorem stops_behind_content {u : Token} (scans : Scans text ts n) (last : u ∈ ts.getLast?)
    (content : u.kind = .stringContent) :
    ∃ o outer, unmatched ts = o :: outer ∧ o.kind = .stringOpen ∧
      ∀ c ∈ (text.drop n).head?, c = o.quote ∨ c = '\x7b' := by
  induction scans with
  | start => cases last
  | @skip ts n _ inside nothing ih =>
    -- A string literal goes on with every character, so none is skipped there.
    obtain ⟨o, outer, innermost, string, -⟩ := ih last
    obtain ⟨x, goes⟩ := Lexeme.exists_inString? o.quote text[n] (text.drop (n + 1))
    rw [← List.drop_eq_getElem_cons inside] at goes
    simp [lexemeBehind?, innermost, string, goes] at nothing
  | @read ts n x _ ahead _ =>
    simp only [List.getLast?_append, List.getLast?_singleton, Option.some_or,
      Option.mem_some] at last
    subst last
    have kind : x.kind = .stringContent := content
    obtain ⟨o, outer, innermost, string, same⟩ | ⟨-, same⟩ := lexemeBehind?_cases ts
    · cases Lexeme.inString?_cases ((same _).symm.trans ahead) with
      | closes closes => simp [closes] at kind
      | opens opens => simp [opens] at kind
      | content _ runs _ =>
        refine ⟨o, outer, ?_, string, fun c next => ?_⟩
        · simp [unmatched_concat, tokenAt, kind, TokenKind.opens, TokenKind.closes, innermost]
        · rw [runs, ← List.drop_drop] at next
          exact head?_drop_contentLength o.quote _ next
    · exact absurd kind (Lexeme.ofChars?_brackets ((same _).symm.trans ahead)).1

end Scans

/-- What can stand in a string literal behind other tokens: text, though not behind text, a brace
that opens, the closing quote, and the end of the text. -/
inductive StringPart (front : List Token) (o t : Token) : Prop
  | content (kind : t.kind = .stringContent)
      (apart : ∀ u ∈ front.getLast?, u.kind ≠ .stringContent)
  | opens (kind : t.kind = .punctuator .lbrace)
  | closes (kind : t.kind = .stringClose) (closed : o.IsClosedBy t)
  | ended (kind : t.kind = .endOfInput)

/-- A token where the innermost unmatched opener is a quote is a part of the string literal, and
anywhere else it is neither text of one nor its end. -/
inductive Reads (front : List Token) (t : Token) : Prop
  | inString (o : Token) (outer : List Token) (innermost : unmatched front = o :: outer)
      (string : o.kind = .stringOpen) (part : StringPart front o t)
  | inCode (code : ∀ o ∈ (unmatched front).head?, o.kind ≠ .stringOpen)
      (noContent : t.kind ≠ .stringContent) (noClose : t.kind ≠ .stringClose)

theorem Scans.reads (scans : Scans text ts n)
    (ahead : lexemeBehind? ts (text.drop n) = some x) :
    Reads ts (tokenAt text ts.length n x) := by
  obtain ⟨o, outer, innermost, string, same⟩ | ⟨code, same⟩ := lexemeBehind?_cases ts
  · refine .inString o outer innermost string ?_
    cases Lexeme.inString?_cases ((same _).symm.trans ahead) with
    | opens kind => exact .opens kind
    | closes kind one next =>
      refine .closes kind (.quote o.quote ⟨string, ?_⟩ ⟨kind, ?_⟩)
      · exact (scans.text_of_stringOpen
          (opens_of_mem_unmatched (innermost ▸ List.mem_cons_self)).1 string).1
      · cases rest : text.drop n with
        | nil => rw [rest, lexemeBehind?_nil] at ahead; cases ahead
        | cons c cs =>
          rw [rest, List.head?_cons, Option.some.injEq] at next
          simp [tokenAt, one, rest, next]
    | content kind _ inside =>
      refine .content kind fun u last content => ?_
      obtain ⟨o', outer', innermost', -, stops⟩ := scans.stops_behind_content last content
      cases innermost.symm.trans innermost'
      cases rest : text.drop n with
      | nil => rw [rest, lexemeBehind?_nil] at ahead; cases ahead
      | cons c cs =>
        rw [rest] at inside stops
        exact (stops c rfl).elim (inside c rfl).1 (inside c rfl).2
  · have brackets := Lexeme.ofChars?_brackets ((same _).symm.trans ahead)
    exact .inCode code brackets.1 brackets.2.1

/-- What closes closes the innermost opener that is unmatched, and only a brace can close where
nothing is unmatched. -/
theorem Reads.closes {front : List Token} (reads : Reads front t) (closes : t.kind.closes = true) :
    t.kind = .punctuator .rbrace ∧ unmatched front = [] ∨
      ∃ o outer, unmatched front = o :: outer ∧ o.IsClosedBy t := by
  cases reads with
  | inString o outer innermost string part =>
    cases part with
    | closes _ closed => exact .inr ⟨o, outer, innermost, closed⟩
    | content kind | opens kind | ended kind => simp [kind, TokenKind.closes] at closes
  | inCode code _ noClose =>
    have brace : t.kind = .punctuator .rbrace := by
      simpa [TokenKind.closes, noClose] using closes
    cases behind : unmatched front with
    | nil => exact .inl ⟨brace, rfl⟩
    | cons o outer =>
      have opens := (opens_of_mem_unmatched (behind ▸ List.mem_cons_self)).2
      have noQuote : o.kind ≠ .stringOpen := code o (by simp [behind])
      exact .inr ⟨o, outer, rfl, .brace (by simpa [TokenKind.opens, noQuote] using opens) brace⟩

end XuleLang
