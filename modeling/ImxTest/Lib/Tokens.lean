import Mathlib.Data.List.Basic
import Mathlib.Tactic.Common

/-!
# Splitting a text into tokens

A token is a run of symbols without separators, or what stands between an opening
quote and the next closing symbol.  The text is read once from left to right; `Within`
is the part of a token that has been read.
-/

set_option autoImplicit false

namespace ImxTest.Lib.Tokens

universe u

structure Lexicon (Symbol : Type u) where
  separates : Symbol → Bool
  opens : Symbol → Bool
  closes : Symbol → Bool

def Lexicon.ends {Symbol : Type u} (lexicon : Lexicon Symbol) (quoted : Bool) : Symbol → Bool :=
  if quoted then lexicon.closes else lexicon.separates

inductive Within (Symbol : Type u) where
  | gap
  | token (quoted : Bool) (read : List Symbol)

section Split
variable {Symbol : Type u} (lexicon : Lexicon Symbol)

def splitFrom : Within Symbol → List Symbol → List (List Symbol)
  | .gap, [] => []
  | .token _ read, [] => [read]
  | .gap, symbol :: rest =>
      if lexicon.separates symbol then splitFrom .gap rest
      else if lexicon.opens symbol then splitFrom (.token true []) rest
      else splitFrom (.token false [symbol]) rest
  | .token quoted read, symbol :: rest =>
      if lexicon.ends quoted symbol then read :: splitFrom .gap rest
      else splitFrom (.token quoted (read ++ [symbol])) rest

def split (text : List Symbol) : List (List Symbol) :=
  splitFrom lexicon .gap text

/-- Where the next token begins. -/
def skipGap (text : List Symbol) : List Symbol :=
  text.dropWhile lexicon.separates

end Split

section Rules
variable {Symbol : Type u} {lexicon : Lexicon Symbol}

theorem split_skipGap (text : List Symbol) :
    split lexicon (skipGap lexicon text) = split lexicon text := by
  induction text with
  | nil => rfl
  | cons symbol rest ih =>
      unfold split skipGap at ih ⊢
      by_cases separates : lexicon.separates symbol = true
      · rw [List.dropWhile_cons_of_pos separates, ih, splitFrom, if_pos separates]
      · rw [List.dropWhile_cons_of_neg separates]

/-- A token is read to its end, where what ends it or the end of the text stands. -/
theorem splitFrom_token (quoted : Bool) (word read : List Symbol)
    (inside : ∀ symbol ∈ word, lexicon.ends quoted symbol = false) (rest : List Symbol) :
    splitFrom lexicon (.token quoted read) (word ++ rest) =
      splitFrom lexicon (.token quoted (read ++ word)) rest := by
  induction word generalizing read with
  | nil => rw [List.nil_append, List.append_nil]
  | cons symbol word ih =>
      have goes : ¬ lexicon.ends quoted symbol = true := by
        rw [inside symbol List.mem_cons_self]
        exact Bool.false_ne_true
      rw [List.cons_append, splitFrom, if_neg goes,
        ih (read ++ [symbol]) fun other member => inside other (List.mem_cons_of_mem _ member),
        List.append_assoc, List.singleton_append]

theorem splitFrom_token_rest (quoted : Bool) (read rest : List Symbol)
    (ends : ∀ symbol ∈ rest.head?, lexicon.ends quoted symbol = true) :
    splitFrom lexicon (.token quoted read) rest = read :: split lexicon (rest.drop 1) := by
  cases rest with
  | nil => rfl
  | cons symbol rest =>
      rw [splitFrom, if_pos (ends symbol rfl), List.drop_succ_cons, List.drop_zero]
      rfl

end Rules

end ImxTest.Lib.Tokens
