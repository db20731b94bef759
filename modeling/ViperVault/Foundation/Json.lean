import Mathlib.Algebra.GroupWithZero.Nat
import Mathlib.Data.List.Chain

/-!
# JSON texts

JSON values with natural numbers, their compact text and a reader. The reader is a
transducer from characters to tokens followed by a recursive-descent parser on tokens; it
skips white space and refuses leading zeros, unescaped control characters and escapes of
surrogates. Reading the text of a value gives the value back.
-/

namespace ViperVault.Foundation

/-- A JSON value. -/
inductive Json
  | null
  | bool (b : Bool)
  | num (n : Nat)
  | str (s : List Char)
  | arr (items : List Json)
  | obj (members : List (String × Json))

namespace Json

/-- A lexical token. -/
inductive Token
  | null
  | bool (b : Bool)
  | num (n : Nat)
  | str (s : List Char)
  | lbracket
  | rbracket
  | lbrace
  | rbrace
  | comma
  | colon
  deriving DecidableEq

/-! ## Characters -/

def quote : Char := '\x22'
def backslash : Char := '\x5c'

/-- The text of one character inside a string. -/
def escapeChar (c : Char) : List Char :=
  if c = quote then [backslash, quote]
  else if c = backslash then [backslash, backslash]
  else if c = '\x08' then [backslash, 'b']
  else if c = '\x0c' then [backslash, 'f']
  else if c = '\n' then [backslash, 'n']
  else if c = '\r' then [backslash, 'r']
  else if c = '\t' then [backslash, 't']
  else if c.toNat < 32 then
    [backslash, 'u', '0', '0', (c.toNat / 16).digitChar, (c.toNat % 16).digitChar]
  else [c]

/-- The text of a token. -/
def Token.print : Token → List Char
  | .null => ['n', 'u', 'l', 'l']
  | .bool true => ['t', 'r', 'u', 'e']
  | .bool false => ['f', 'a', 'l', 's', 'e']
  | .num n => Nat.toDigits 10 n
  | .str s => quote :: (s.flatMap escapeChar ++ [quote])
  | .lbracket => ['[']
  | .rbracket => [']']
  | .lbrace => ['\x7b']
  | .rbrace => ['\x7d']
  | .comma => [',']
  | .colon => [':']

/-- Where the lexer stands inside a token. -/
inductive LexState
  | idle
  | number (n : Nat)
  | text (acc : List Char)
  | escape (acc : List Char)
  | unicode (acc : List Char) (count value : Nat)
  | word (acc : List Char)
  deriving DecidableEq

/-- A hexadecimal digit. -/
def hexDigit? (c : Char) : Option Nat :=
  if c.isDigit then some (c.toNat - 48)
  else if 97 ≤ c.toNat && c.toNat ≤ 102 then some (c.toNat - 87)
  else if 65 ≤ c.toNat && c.toNat ≤ 70 then some (c.toNat - 55)
  else none

/-- The first character of a token, or white space. -/
def lexStart (c : Char) : Option (List Token × LexState) :=
  if c = ' ' || c = '\n' || c = '\r' || c = '\t' then some ([], .idle)
  else if c = '[' then some ([.lbracket], .idle)
  else if c = ']' then some ([.rbracket], .idle)
  else if c = '\x7b' then some ([.lbrace], .idle)
  else if c = '\x7d' then some ([.rbrace], .idle)
  else if c = ',' then some ([.comma], .idle)
  else if c = ':' then some ([.colon], .idle)
  else if c = quote then some ([], .text [])
  else if c = 'n' || c = 't' || c = 'f' then some ([], .word [c])
  else if c.isDigit then some ([], .number (c.toNat - 48))
  else none

/-- A character after a backslash. -/
def lexEscape (acc : List Char) (c : Char) : Option LexState :=
  if c = quote || c = backslash || c = '/' then some (.text (acc ++ [c]))
  else if c = 'b' then some (.text (acc ++ ['\x08']))
  else if c = 'f' then some (.text (acc ++ ['\x0c']))
  else if c = 'n' then some (.text (acc ++ ['\n']))
  else if c = 'r' then some (.text (acc ++ ['\r']))
  else if c = 't' then some (.text (acc ++ ['\t']))
  else if c = 'u' then some (.unicode acc 0 0)
  else none

/-- Feed one character: the tokens it completes and the next state. -/
def lexStep : LexState → Char → Option (List Token × LexState)
  | .idle, c => lexStart c
  | .number n, c =>
      if c.isDigit then
        if n = 0 then none else some ([], .number (10 * n + (c.toNat - 48)))
      else (lexStart c).map fun r => (.num n :: r.1, r.2)
  | .text acc, c =>
      if c = quote then some ([.str acc], .idle)
      else if c = backslash then some ([], .escape acc)
      else if c.toNat < 32 then none
      else some ([], .text (acc ++ [c]))
  | .escape acc, c => (lexEscape acc c).map fun st => ([], st)
  | .unicode acc count value, c =>
      (hexDigit? c).bind fun d =>
        if count < 3 then some ([], .unicode acc (count + 1) (16 * value + d))
        else if (16 * value + d).isValidChar then
          some ([], .text (acc ++ [Char.ofNat (16 * value + d)]))
        else none
  | .word acc, c =>
      if acc ++ [c] = ['n', 'u', 'l', 'l'] then some ([.null], .idle)
      else if acc ++ [c] = ['t', 'r', 'u', 'e'] then some ([.bool true], .idle)
      else if acc ++ [c] = ['f', 'a', 'l', 's', 'e'] then some ([.bool false], .idle)
      else if acc.length < 4 then some ([], .word (acc ++ [c]))
      else none

/-- Feed a text. -/
def lexFeed : LexState → List Char → Option (List Token × LexState)
  | st, [] => some ([], st)
  | st, c :: cs => (lexStep st c).bind fun r =>
      (lexFeed r.2 cs).map fun r' => (r.1 ++ r'.1, r'.2)

/-- The token that the end of the text completes. -/
def LexState.finish : LexState → Option (List Token)
  | .idle => some []
  | .number n => some [.num n]
  | _ => none

/-- The tokens of a text. -/
def lex (s : List Char) : Option (List Token) :=
  (lexFeed .idle s).bind fun r => r.2.finish.map fun ts => r.1 ++ ts

theorem lexFeed_append (st : LexState) (s t : List Char) :
    lexFeed st (s ++ t) = (lexFeed st s).bind fun r =>
      (lexFeed r.2 t).map fun r' => (r.1 ++ r'.1, r'.2) := by
  induction s generalizing st with
  | nil => simp [lexFeed]
  | cons c s ih =>
      simp only [List.cons_append, lexFeed, ih]
      cases lexStep st c with
      | none => rfl
      | some r =>
          cases hs : lexFeed r.2 s with
          | none => simp [hs]
          | some r' =>
              cases ht : lexFeed r'.2 t with
              | none => simp [hs, ht]
              | some r'' => simp [hs, ht]

/-- Feeding in two parts, when the first part completes no token. -/
theorem lexFeed_append_of_silent {st st' : LexState} {s t : List Char}
    (h : lexFeed st s = some ([], st')) : lexFeed st (s ++ t) = lexFeed st' t := by
  rw [lexFeed_append, h]
  simp

theorem hexDigit?_digitChar : ∀ d, d < 16 → hexDigit? d.digitChar = some d := by decide

theorem lexStep_backslash (acc : List Char) :
    lexStep (.text acc) backslash = some ([], .escape acc) := by
  have hne : ¬ backslash = quote := by decide
  simp [lexStep, hne]

theorem lexStep_escape (acc : List Char) (c : Char) :
    lexStep (.escape acc) c = (lexEscape acc c).map fun st => ([], st) := rfl

theorem lexStep_unicode (acc : List Char) (count value : Nat) (c : Char) :
    lexStep (.unicode acc count value) c = (hexDigit? c).bind fun d =>
      if count < 3 then some ([], .unicode acc (count + 1) (16 * value + d))
      else if (16 * value + d).isValidChar then
        some ([], .text (acc ++ [Char.ofNat (16 * value + d)]))
      else none := rfl

/-- The two-character escapes. -/
private theorem lexFeed_shortEscape {acc : List Char} {c e : Char}
    (h : lexEscape acc e = some (.text (acc ++ [c]))) :
    lexFeed (.text acc) [backslash, e] = some ([], .text (acc ++ [c])) := by
  simp [lexFeed, lexStep_backslash, lexStep_escape, h]

/-- The six-character escape of a control character. -/
private theorem lexFeed_unicodeEscape (acc : List Char) {c : Char} (hc : c.toNat < 32) :
    lexFeed (.text acc)
        [backslash, 'u', '0', '0', (c.toNat / 16).digitChar, (c.toNat % 16).digitChar] =
      some ([], .text (acc ++ [c])) := by
  have hu : lexEscape acc 'u' = some (.unicode acc 0 0) := by
    simp [lexEscape, quote, backslash]
  have hzero : hexDigit? '0' = some 0 := by decide
  have hhigh := hexDigit?_digitChar (c.toNat / 16) (by omega)
  have hlow := hexDigit?_digitChar (c.toNat % 16) (by omega)
  have hvalue : 16 * (c.toNat / 16) + c.toNat % 16 = c.toNat := by omega
  have hvalid : c.toNat.isValidChar := c.valid
  have hread : Char.ofNat c.toNat = c := Char.ofNat_toNat c
  simp [lexFeed, lexStep_backslash, lexStep_escape, lexStep_unicode, hu, hzero, hhigh, hlow,
    hvalue, hvalid, hread]

/-- An escaped character is read back inside a string. -/
theorem lexFeed_escapeChar (acc : List Char) (c : Char) :
    lexFeed (.text acc) (escapeChar c) = some ([], .text (acc ++ [c])) := by
  unfold escapeChar
  split
  · subst c
    exact lexFeed_shortEscape (by simp [lexEscape])
  rename_i hquote
  split
  · subst c
    exact lexFeed_shortEscape (by simp [lexEscape])
  rename_i hback
  split
  · subst c
    exact lexFeed_shortEscape (by simp [lexEscape, quote, backslash])
  split
  · subst c
    exact lexFeed_shortEscape (by simp [lexEscape, quote, backslash])
  split
  · subst c
    exact lexFeed_shortEscape (by simp [lexEscape, quote, backslash])
  split
  · subst c
    exact lexFeed_shortEscape (by simp [lexEscape, quote, backslash])
  split
  · subst c
    exact lexFeed_shortEscape (by simp [lexEscape, quote, backslash])
  split
  · rename_i hcontrol
    exact lexFeed_unicodeEscape acc hcontrol
  · rename_i hplain
    simp [lexFeed, lexStep, hquote, hback, hplain]

theorem lexFeed_escape (acc s : List Char) :
    lexFeed (.text acc) (s.flatMap escapeChar) = some ([], .text (acc ++ s)) := by
  induction s generalizing acc with
  | nil => simp [lexFeed]
  | cons c s ih =>
      rw [List.flatMap_cons, lexFeed_append_of_silent (lexFeed_escapeChar acc c), ih]
      simp

/-- A decimal numeral is read as its number, which stays open. -/
theorem lexFeed_toDigits (n : Nat) :
    lexFeed .idle (Nat.toDigits 10 n) = some ([], .number n) := by
  induction n using Nat.strongRecOn with
  | ind n ih =>
      have hdigit : ∀ d, d < 10 → lexStart d.digitChar = some ([], .number d) := by decide
      by_cases hn : n < 10
      · rw [Nat.toDigits_of_lt_base hn]
        simp [lexFeed, lexStep, hdigit n hn]
      · have hmod : n % 10 < 10 := Nat.mod_lt n (by omega)
        have hstep : lexStep (.number (n / 10)) (n % 10).digitChar = some ([], .number n) := by
          have hisDigit : (n % 10).digitChar.isDigit = true := by
            simp [Nat.isDigit_digitChar, hmod]
          have hval : (n % 10).digitChar.toNat - 48 = n % 10 :=
            Nat.toNat_digitChar_sub_48_of_lt_ten hmod
          have hpos : n / 10 ≠ 0 := by omega
          have hsum : 10 * (n / 10) + n % 10 = n := by omega
          simp [lexStep, hisDigit, hval, hpos, hsum]
        rw [Nat.toDigits_of_base_le (by omega) (by omega),
          lexFeed_append_of_silent (ih (n / 10) (by omega))]
        simp [lexFeed, hstep]

/-! ## Tokens -/

/-- The token is not a number. -/
def Token.NotNum : Token → Prop
  | .num _ => False
  | _ => True

/-- Between two tokens, a character that is no digit closes an open number. -/
theorem lexStep_of_finish {st : LexState} {pending : List Token}
    (hst : st.finish = some pending) {c : Char} (hc : c.isDigit = false) :
    lexStep st c = (lexStart c).map fun r => (pending ++ r.1, r.2) := by
  cases st with
  | idle =>
      cases hst
      cases h : lexStart c <;> simp [lexStep, h]
  | number n =>
      cases hst
      simp [lexStep, hc]
  | _ => cases hst

/-- A token that is not a number closes what was open, and is complete at its last
character. -/
theorem lexFeed_print {st : LexState} {pending : List Token} (hst : st.finish = some pending)
    {t : Token} (ht : t.NotNum) : lexFeed st t.print = some (pending ++ [t], .idle) := by
  suffices hidle : lexFeed .idle t.print = some ([t], .idle) ∧
      ∃ c cs, t.print = c :: cs ∧ c.isDigit = false by
    obtain ⟨hidle, c, cs, hprint, hc⟩ := hidle
    rw [hprint] at hidle ⊢
    have hstart : lexStep .idle c = lexStart c := rfl
    simp only [lexFeed, lexStep_of_finish hst hc, hstart] at hidle ⊢
    cases hr : lexStart c with
    | none => simp [hr] at hidle
    | some r =>
        simp only [hr, Option.bind_some, Option.map_some] at hidle ⊢
        cases hr' : lexFeed r.2 cs with
        | none => simp [hr'] at hidle
        | some r' =>
            simp only [hr', Option.map_some, Option.some.injEq, Prod.mk.injEq] at hidle
            simp [hidle.1, hidle.2]
  cases t with
  | num n => exact absurd ht (by simp [Token.NotNum])
  | str s =>
      refine ⟨?_, quote, _, rfl, by decide⟩
      have hquote : lexFeed .idle [quote] = some ([], .text []) := by decide
      have hclose : lexFeed (.text s) [quote] = some ([.str s], .idle) := by
        simp [lexFeed, lexStep]
      have hprint : Token.print (.str s) = [quote] ++ (s.flatMap escapeChar ++ [quote]) := rfl
      rw [hprint, lexFeed_append_of_silent hquote, lexFeed_append_of_silent (lexFeed_escape [] s)]
      exact hclose
  | bool b => cases b <;> exact ⟨by decide, _, _, rfl, by decide⟩
  | _ => exact ⟨by decide, _, _, rfl, by decide⟩

/-- The text of a list of tokens. -/
def printTokens (ts : List Token) : List Char := ts.flatMap Token.print

/-- No number is followed directly by a number. -/
def Separated (ts : List Token) : Prop := ts.IsChain fun s t => s.NotNum ∨ t.NotNum

/-- A separated list that may also follow a number. -/
def Ready (ts : List Token) : Prop := Separated ts ∧ ∀ t ∈ ts.head?, t.NotNum

theorem ready_cons (t : Token) {ts : List Token} (ht : t.NotNum) (hts : Separated ts) :
    Ready (t :: ts) := by
  refine ⟨?_, by simpa using ht⟩
  cases ts with
  | nil => exact List.isChain_singleton t
  | cons u us => exact List.isChain_cons_cons.mpr ⟨Or.inl ht, hts⟩

theorem separated_num_cons (n : Nat) {ts : List Token} (hts : Ready ts) :
    Separated (.num n :: ts) := by
  cases ts with
  | nil => exact List.isChain_singleton _
  | cons u us => exact List.isChain_cons_cons.mpr ⟨Or.inr (hts.2 u rfl), hts.1⟩

/-- The text of separated tokens is read as these tokens, up to a number that is still open. -/
theorem lexFeed_printTokens {st : LexState} {pending ts : List Token}
    (hst : st.finish = some pending) (hts : Separated ts)
    (hnum : pending ≠ [] → ∀ t ∈ ts.head?, t.NotNum) :
    ∃ done st' pending', lexFeed st (printTokens ts) = some (done, st') ∧
      st'.finish = some pending' ∧ done ++ pending' = pending ++ ts := by
  induction ts generalizing st pending with
  | nil => exact ⟨[], st, pending, rfl, hst, by simp⟩
  | cons t ts ih =>
      have htail : Separated ts := List.IsChain.tail hts
      have hprint : printTokens (t :: ts) = t.print ++ printTokens ts := rfl
      by_cases ht : t.NotNum
      · obtain ⟨done, st', pending', hfeed, hst', hsum⟩ :=
          ih (show LexState.idle.finish = some [] from rfl) htail (by simp)
        refine ⟨pending ++ [t] ++ done, st', pending', ?_, hst', ?_⟩
        · rw [hprint, lexFeed_append, lexFeed_print hst ht]
          simp [hfeed]
        · simp only [List.append_assoc, hsum]
          rfl
      · have hpending : pending = [] := by
          by_contra hne
          exact ht (hnum hne t rfl)
        subst hpending
        have hidle : st = .idle := by
          cases st with
          | idle => rfl
          | number n => simp [LexState.finish] at hst
          | _ => cases hst
        subst hidle
        cases t with
        | num n =>
            have hnext : ∀ u ∈ ts.head?, u.NotNum := by
              intro u hu
              cases ts with
              | nil => cases hu
              | cons v vs =>
                  cases hu
                  rcases (List.isChain_cons_cons.mp hts).1 with h | h
                  · exact absurd h (by simp [Token.NotNum])
                  · exact h
            obtain ⟨done, st', pending', hfeed, hst', hsum⟩ :=
              ih (show (LexState.number n).finish = some [.num n] from rfl) htail fun _ => hnext
            refine ⟨done, st', pending', ?_, hst', by simpa using hsum⟩
            rw [hprint, Token.print, lexFeed_append_of_silent (lexFeed_toDigits n), hfeed]
        | _ => exact absurd trivial ht

/-- The lexer inverts the printing of separated tokens. -/
theorem lex_printTokens {ts : List Token} (hts : Separated ts) :
    lex (printTokens ts) = some ts := by
  obtain ⟨done, st', pending', hfeed, hst', hsum⟩ :=
    lexFeed_printTokens (show LexState.idle.finish = some [] from rfl) hts (by simp)
  simpa [lex, hfeed, hst'] using hsum

/-! ## Values -/

mutual

/-- The tokens of a value. -/
def tokens : Json → List Token
  | .null => [.null]
  | .bool b => [.bool b]
  | .num n => [.num n]
  | .str s => [.str s]
  | .arr [] => [.lbracket, .rbracket]
  | .arr (v :: vs) => .lbracket :: (tokens v ++ itemTokens vs)
  | .obj [] => [.lbrace, .rbrace]
  | .obj ((k, v) :: ms) => .lbrace :: .str k.toList :: .colon :: (tokens v ++ memberTokens ms)

/-- The tokens after the first item of an array. -/
def itemTokens : List Json → List Token
  | [] => [.rbracket]
  | v :: vs => .comma :: (tokens v ++ itemTokens vs)

/-- The tokens after the first member of an object. -/
def memberTokens : List (String × Json) → List Token
  | [] => [.rbrace]
  | (k, v) :: ms => .comma :: .str k.toList :: .colon :: (tokens v ++ memberTokens ms)

end

mutual

/-- Parse a value; the fuel bounds the nesting and the number of items. -/
def parseValue : Nat → List Token → Option (Json × List Token)
  | 0, _ => none
  | _ + 1, .null :: ts => some (.null, ts)
  | _ + 1, .bool b :: ts => some (.bool b, ts)
  | _ + 1, .num n :: ts => some (.num n, ts)
  | _ + 1, .str s :: ts => some (.str s, ts)
  | fuel + 1, .lbracket :: ts =>
      if ts.head? = some .rbracket then some (.arr [], ts.tail)
      else (parseValue fuel ts).bind fun r =>
        (parseItems fuel r.2).map fun r' => (.arr (r.1 :: r'.1), r'.2)
  | _ + 1, .lbrace :: .rbrace :: ts => some (.obj [], ts)
  | fuel + 1, .lbrace :: .str k :: .colon :: ts =>
      (parseValue fuel ts).bind fun r =>
        (parseMembers fuel r.2).map fun r' => (.obj ((String.ofList k, r.1) :: r'.1), r'.2)
  | _, _ => none

/-- Parse the rest of an array after an item. -/
def parseItems : Nat → List Token → Option (List Json × List Token)
  | _ + 1, .rbracket :: ts => some ([], ts)
  | fuel + 1, .comma :: ts =>
      (parseValue fuel ts).bind fun r =>
        (parseItems fuel r.2).map fun r' => (r.1 :: r'.1, r'.2)
  | _, _ => none

/-- Parse the rest of an object after a member. -/
def parseMembers : Nat → List Token → Option (List (String × Json) × List Token)
  | _ + 1, .rbrace :: ts => some ([], ts)
  | fuel + 1, .comma :: .str k :: .colon :: ts =>
      (parseValue fuel ts).bind fun r =>
        (parseMembers fuel r.2).map fun r' => ((String.ofList k, r.1) :: r'.1, r'.2)
  | _, _ => none

end

mutual

theorem separated_tokens (j : Json) {rest : List Token} (hrest : Ready rest) :
    Separated (tokens j ++ rest) := by
  cases j with
  | null => exact (ready_cons .null trivial hrest.1).1
  | bool b => exact (ready_cons (.bool b) trivial hrest.1).1
  | num n => exact separated_num_cons n hrest
  | str s => exact (ready_cons (.str s) trivial hrest.1).1
  | arr items =>
      cases items with
      | nil => exact (ready_cons .lbracket trivial (ready_cons .rbracket trivial hrest.1).1).1
      | cons v vs =>
          have hitems := separated_tokens v (ready_itemTokens vs hrest.1)
          simpa only [tokens, List.cons_append, List.append_assoc] using
            (ready_cons .lbracket trivial hitems).1
  | obj members =>
      cases members with
      | nil => exact (ready_cons .lbrace trivial (ready_cons .rbrace trivial hrest.1).1).1
      | cons m ms =>
          obtain ⟨k, v⟩ := m
          have hmembers := separated_tokens v (ready_memberTokens ms hrest.1)
          have hcolon := ready_cons .colon trivial hmembers
          have hkey := ready_cons (.str k.toList) trivial hcolon.1
          simpa only [tokens, List.cons_append, List.append_assoc] using
            (ready_cons .lbrace trivial hkey.1).1

theorem ready_itemTokens (vs : List Json) {rest : List Token} (hrest : Separated rest) :
    Ready (itemTokens vs ++ rest) := by
  cases vs with
  | nil => exact ready_cons .rbracket trivial hrest
  | cons v vs =>
      have hitems := separated_tokens v (ready_itemTokens vs hrest)
      simpa only [itemTokens, List.cons_append, List.append_assoc] using
        ready_cons .comma trivial hitems

theorem ready_memberTokens (ms : List (String × Json)) {rest : List Token}
    (hrest : Separated rest) : Ready (memberTokens ms ++ rest) := by
  cases ms with
  | nil => exact ready_cons .rbrace trivial hrest
  | cons m ms =>
      obtain ⟨k, v⟩ := m
      have hmembers := separated_tokens v (ready_memberTokens ms hrest)
      have hcolon := ready_cons .colon trivial hmembers
      have hkey := ready_cons (.str k.toList) trivial hcolon.1
      simpa only [memberTokens, List.cons_append, List.append_assoc] using
        ready_cons .comma trivial hkey.1

end

theorem head?_tokens_append (v : Json) (rest : List Token) :
    (tokens v ++ rest).head? ≠ some .rbracket := by
  cases v with
  | arr items => cases items <;> simp [tokens]
  | obj members => cases members <;> simp [tokens]
  | _ => simp [tokens]

mutual

/-- The parser inverts the tokens of a value, given as much fuel as there are tokens. -/
theorem parseValue_tokens (j : Json) {rest : List Token} {fuel : Nat}
    (hfuel : (tokens j).length ≤ fuel) : parseValue fuel (tokens j ++ rest) = some (j, rest) := by
  cases fuel with
  | zero =>
      cases j with
      | arr items => cases items <;> simp [tokens] at hfuel
      | obj members => cases members <;> simp [tokens] at hfuel
      | _ => simp [tokens] at hfuel
  | succ fuel =>
      cases j with
      | null => simp [tokens, parseValue]
      | bool b => simp [tokens, parseValue]
      | num n => simp [tokens, parseValue]
      | str s => simp [tokens, parseValue]
      | arr items =>
          cases items with
          | nil => simp [tokens, parseValue]
          | cons v vs =>
              simp only [tokens, List.length_cons, List.length_append] at hfuel
              have hv : parseValue fuel (tokens v ++ (itemTokens vs ++ rest)) =
                  some (v, itemTokens vs ++ rest) := parseValue_tokens v (by omega)
              have hvs : parseItems fuel (itemTokens vs ++ rest) = some (vs, rest) :=
                parseItems_tokens vs (by omega)
              simp only [tokens, List.cons_append, List.append_assoc, parseValue,
                head?_tokens_append, if_false, hv, Option.bind_some, hvs, Option.map_some]
      | obj members =>
          cases members with
          | nil => simp [tokens, parseValue]
          | cons m ms =>
              obtain ⟨k, v⟩ := m
              simp only [tokens, List.length_cons, List.length_append] at hfuel
              have hv : parseValue fuel (tokens v ++ (memberTokens ms ++ rest)) =
                  some (v, memberTokens ms ++ rest) := parseValue_tokens v (by omega)
              have hms : parseMembers fuel (memberTokens ms ++ rest) = some (ms, rest) :=
                parseMembers_tokens ms (by omega)
              simp only [tokens, List.cons_append, List.append_assoc, parseValue,
                hv, Option.bind_some, hms, Option.map_some, String.ofList_toList]

theorem parseItems_tokens (vs : List Json) {rest : List Token} {fuel : Nat}
    (hfuel : (itemTokens vs).length ≤ fuel) :
    parseItems fuel (itemTokens vs ++ rest) = some (vs, rest) := by
  cases fuel with
  | zero => cases vs <;> simp [itemTokens] at hfuel
  | succ fuel =>
      cases vs with
      | nil => simp [itemTokens, parseItems]
      | cons v vs =>
          simp only [itemTokens, List.length_cons, List.length_append] at hfuel
          have hv : parseValue fuel (tokens v ++ (itemTokens vs ++ rest)) =
              some (v, itemTokens vs ++ rest) := parseValue_tokens v (by omega)
          have hvs : parseItems fuel (itemTokens vs ++ rest) = some (vs, rest) :=
            parseItems_tokens vs (by omega)
          simp only [itemTokens, List.cons_append, List.append_assoc, parseItems, hv,
            Option.bind_some, hvs, Option.map_some]

theorem parseMembers_tokens (ms : List (String × Json)) {rest : List Token} {fuel : Nat}
    (hfuel : (memberTokens ms).length ≤ fuel) :
    parseMembers fuel (memberTokens ms ++ rest) = some (ms, rest) := by
  cases fuel with
  | zero => cases ms <;> simp [memberTokens] at hfuel
  | succ fuel =>
      cases ms with
      | nil => simp [memberTokens, parseMembers]
      | cons m ms =>
          obtain ⟨k, v⟩ := m
          simp only [memberTokens, List.length_cons, List.length_append] at hfuel
          have hv : parseValue fuel (tokens v ++ (memberTokens ms ++ rest)) =
              some (v, memberTokens ms ++ rest) := parseValue_tokens v (by omega)
          have hms : parseMembers fuel (memberTokens ms ++ rest) = some (ms, rest) :=
            parseMembers_tokens ms (by omega)
          simp only [memberTokens, List.cons_append, List.append_assoc, parseMembers, hv,
            Option.bind_some, hms, Option.map_some, String.ofList_toList]

end

/-! ## Texts and bytes -/

/-- The compact text of a value. -/
def print (j : Json) : List Char := printTokens (tokens j)

/-- The value of a text, which has to hold one value and nothing else. -/
def parse (s : List Char) : Option Json :=
  (lex s).bind fun ts =>
    (parseValue ts.length ts).bind fun r => if r.2 = [] then some r.1 else none

/-- Reading the text of a value gives the value back. -/
theorem parse_print (j : Json) : parse (print j) = some j := by
  have hready : Ready [] := ⟨List.isChain_nil, by simp⟩
  have hlex : lex (print j) = some (tokens j) := by
    apply lex_printTokens
    simpa using separated_tokens j hready
  have hparse : parseValue (tokens j).length (tokens j ++ []) = some (j, []) :=
    parseValue_tokens j (Nat.le_refl _)
  rw [List.append_nil] at hparse
  simp [parse, hlex, hparse]

/-- The UTF-8 bytes of a text. -/
def utf8 (s : List Char) : List UInt8 := s.flatMap String.utf8EncodeChar

/-- The text that bytes encode. -/
def utf8? (bytes : List UInt8) : Option (List Char) :=
  bytes.toByteArray.utf8Decode?.map Array.toList

theorem utf8?_utf8 (s : List Char) : utf8? (utf8 s) = some s := by
  have hbytes : (utf8 s).toByteArray = s.utf8Encode := rfl
  simp [utf8?, hbytes]

theorem utf8_injective : Function.Injective utf8 := by
  intro s t h
  have hs := utf8?_utf8 s
  rw [h, utf8?_utf8] at hs
  exact (Option.some.inj hs).symm

/-- Only the bytes of a text decode to it. -/
theorem utf8?_eq_some {bytes : List UInt8} {s : List Char} :
    utf8? bytes = some s ↔ bytes = utf8 s := by
  constructor
  · intro h
    obtain ⟨chars, hchars, rfl⟩ := Option.map_eq_some_iff.mp h
    obtain ⟨hsome, hget⟩ := Option.eq_some_iff_get_eq.mp hchars
    have hencode := ByteArray.utf8Encode_get_utf8Decode? (h := hsome)
    rw [hget] at hencode
    have hbytes : (utf8 chars.toList).toByteArray = bytes.toByteArray := hencode
    exact (List.toByteArray_inj.mp hbytes).symm
  · rintro rfl
    exact utf8?_utf8 s

/-- The value that bytes hold. -/
def ofBytes (bytes : List UInt8) : Option Json := (utf8? bytes).bind parse

/-- The bytes of a value. -/
def toBytes (j : Json) : List UInt8 := utf8 (print j)

theorem ofBytes_toBytes (j : Json) : ofBytes (toBytes j) = some j := by
  simp [ofBytes, toBytes, utf8?_utf8, parse_print]

/-! ## Sizes -/

/-- A bound on the bytes of a token. -/
def Token.size : Token → Nat
  | .null => 4
  | .bool _ => 5
  | .num n => (Nat.toDigits 10 n).length
  | .str s => 2 + 6 * s.length
  | _ => 1

/-- A bound on the bytes of a list of tokens. -/
def tokensSize (ts : List Token) : Nat := (ts.map Token.size).sum

/-- A bound on the bytes of a value. -/
def size (j : Json) : Nat := tokensSize (tokens j)

theorem utf8_append (s t : List Char) : utf8 (s ++ t) = utf8 s ++ utf8 t := List.flatMap_append

theorem utf8_cons (c : Char) (s : List Char) :
    utf8 (c :: s) = String.utf8EncodeChar c ++ utf8 s := List.flatMap_cons

/-- Characters of one byte each take as many bytes as there are. -/
theorem length_utf8_of_ascii {s : List Char} (hs : ∀ c ∈ s, c.utf8Size = 1) :
    (utf8 s).length = s.length := by
  induction s with
  | nil => rfl
  | cons c s ih =>
      have hc : c.utf8Size = 1 := hs c (by simp)
      have htail := ih fun d hd => hs d (by simp [hd])
      simp [utf8_cons, hc, htail, Nat.add_comm]

theorem utf8Size_digit {c : Char} (hc : c.isDigit = true) : c.utf8Size = 1 := by
  simp only [Char.isDigit, ge_iff_le, Bool.and_eq_true, decide_eq_true_eq] at hc
  have hle : c.val ≤ 0x7f := UInt32.le_trans hc.2 (by decide)
  simp [Char.utf8Size, hle]

theorem utf8Size_digitChar : ∀ d, d < 16 → d.digitChar.utf8Size = 1 := by decide

/-- A character takes at most six bytes inside a string. -/
theorem length_utf8_escapeChar_le (c : Char) : (utf8 (escapeChar c)).length ≤ 6 := by
  unfold escapeChar
  iterate 7
    split
    · decide
  split
  · rename_i hc
    have hhigh : (c.toNat / 16).digitChar.utf8Size = 1 := utf8Size_digitChar _ (by omega)
    have hlow : (c.toNat % 16).digitChar.utf8Size = 1 := utf8Size_digitChar _ (by omega)
    rw [length_utf8_of_ascii]
    · simp
    · simp only [List.mem_cons, List.not_mem_nil, or_false]
      rintro d (rfl | rfl | rfl | rfl | rfl | rfl)
      all_goals first | assumption | decide
  · have hsize := c.utf8Size_le_four
    have hlen : (utf8 [c]).length = c.utf8Size := by simp [utf8]
    omega

theorem length_utf8_flatMap_escapeChar_le (s : List Char) :
    (utf8 (s.flatMap escapeChar)).length ≤ 6 * s.length := by
  induction s with
  | nil => exact Nat.le_refl 0
  | cons c s ih =>
      have hc := length_utf8_escapeChar_le c
      simp only [List.flatMap_cons, utf8_append, List.length_append, List.length_cons]
      omega

theorem length_utf8_print_le (t : Token) : (utf8 t.print).length ≤ t.size := by
  cases t with
  | num n =>
      have hascii : ∀ c ∈ Nat.toDigits 10 n, c.utf8Size = 1 := fun c hc =>
        utf8Size_digit (Nat.isDigit_of_mem_toDigits (by omega) (by omega) hc)
      exact Nat.le_of_eq (length_utf8_of_ascii hascii)
  | str s =>
      have hbody := length_utf8_flatMap_escapeChar_le s
      have hquote : (utf8 [quote]).length = 1 := by decide
      have hprint : Token.print (.str s) = [quote] ++ (s.flatMap escapeChar ++ [quote]) := rfl
      simp only [hprint, utf8_append, List.length_append, hquote, Token.size]
      omega
  | bool b => cases b <;> decide
  | _ => decide

/-- The bytes of a value are within its size. -/
theorem length_toBytes_le (j : Json) : (toBytes j).length ≤ size j := by
  have htokens : ∀ ts, (utf8 (printTokens ts)).length ≤ tokensSize ts := by
    intro ts
    induction ts with
    | nil => exact Nat.le_refl 0
    | cons t ts ih =>
        have ht := length_utf8_print_le t
        simp only [printTokens, tokensSize] at ih ⊢
        simp only [List.flatMap_cons, utf8_append, List.length_append, List.map_cons,
          List.sum_cons]
        omega
  exact htokens (tokens j)

@[simp] theorem tokensSize_nil : tokensSize [] = 0 := rfl

@[simp] theorem tokensSize_cons (t : Token) (ts : List Token) :
    tokensSize (t :: ts) = t.size + tokensSize ts := by
  simp [tokensSize]

@[simp] theorem tokensSize_append (ts us : List Token) :
    tokensSize (ts ++ us) = tokensSize ts + tokensSize us := by
  simp [tokensSize]

/-- A number below a power of ten takes as many digits as the exponent says. -/
theorem size_num_le {n k : Nat} (hk : 0 < k) (hn : n < 10 ^ k) : size (.num n) ≤ k :=
  (Nat.length_toDigits_le_iff (by omega) hk).mpr hn

theorem size_str (s : List Char) : size (.str s) = 2 + 6 * s.length := rfl

/-- The items of an array, each with a comma, and the brackets. -/
theorem size_arr_le {items : List Json} {k : Nat} (hk : ∀ v ∈ items, size v ≤ k) :
    size (.arr items) ≤ 2 + (k + 1) * items.length := by
  have hitems : ∀ vs : List Json, (∀ v ∈ vs, size v ≤ k) →
      tokensSize (itemTokens vs) ≤ 1 + (k + 1) * vs.length := by
    intro vs hvs
    induction vs with
    | nil => simp [itemTokens, Token.size]
    | cons v vs ih =>
        have hv : tokensSize (tokens v) ≤ k := hvs v (by simp)
        have htail := ih fun w hw => hvs w (by simp [hw])
        simp only [itemTokens, tokensSize_cons, tokensSize_append, Token.size, List.length_cons]
        rw [Nat.mul_succ]
        omega
  cases items with
  | nil => simp [size, tokens, Token.size]
  | cons v vs =>
      have hv : tokensSize (tokens v) ≤ k := hk v (by simp)
      have htail := hitems vs fun w hw => hk w (by simp [hw])
      simp only [size, tokens, tokensSize_cons, tokensSize_append, Token.size, List.length_cons]
      rw [Nat.mul_succ]
      omega

/-- The members of an object, each with its key, a colon and a comma, and the braces. -/
theorem size_obj_le {l : List (String × Json)} {k : Nat} (hk : ∀ m ∈ l, m.1.length ≤ k) :
    size (.obj l) ≤ 2 + (l.map fun m => 4 + 6 * k + size m.2).sum := by
  have hmembers : ∀ ms : List (String × Json), (∀ m ∈ ms, m.1.length ≤ k) →
      tokensSize (memberTokens ms) ≤ 1 + (ms.map fun m => 4 + 6 * k + size m.2).sum := by
    intro ms hms
    induction ms with
    | nil => simp [memberTokens, Token.size]
    | cons m ms ih =>
        have hkey := hms m (by simp)
        have htail := ih fun m' hm' => hms m' (by simp [hm'])
        simp only [memberTokens, tokensSize_cons, tokensSize_append, Token.size, List.map_cons,
          List.sum_cons, String.length_toList, size] at htail ⊢
        omega
  cases l with
  | nil => simp [size, tokens, Token.size]
  | cons m ms =>
      have hkey := hk m (by simp)
      have htail := hmembers ms fun m' hm' => hk m' (by simp [hm'])
      simp only [size, tokens, tokensSize_cons, tokensSize_append, Token.size, List.map_cons,
        List.sum_cons, String.length_toList] at htail ⊢
      omega

end Json

end ViperVault.Foundation
