import InputScript.Proofs.Meaning

namespace InputScript

namespace Piece

def quote (c : Char) : Piece :=
  if h : c = ']' ∨ c = '\\' ∨ c = ',' then .escaped c
  else .plain c (fun hclose => h (.inl hclose)) (fun hescape => h (.inr (.inl hescape)))

def comma : Piece :=
  .plain ',' (by decide) (by decide)

def body : List String → List Piece
  | [] => []
  | [a] => a.toList.map quote
  | a :: b :: rest => a.toList.map quote ++ comma :: body (b :: rest)

@[simp] theorem char_quote (c : Char) : (quote c).char = c := by
  unfold quote
  split_ifs <;> rfl

theorem splits_quote (c : Char) : (quote c).splits = false := by
  unfold quote
  split_ifs with h
  · rfl
  · exact decide_eq_false fun hcomma => h (.inr (.inr hcomma))

theorem word_quote (a : String) : word (a.toList.map quote) = a := by
  have hchars : (a.toList.map quote).map char = a.toList := by
    rw [List.map_map]
    exact List.map_id'' char_quote _
  rw [word, hchars, String.ofList_toList]

theorem splits_of_mem_quote {a : String} : ∀ piece ∈ a.toList.map quote, piece.splits = false := by
  intro piece hpiece
  obtain ⟨c, -, rfl⟩ := List.mem_map.mp hpiece
  exact splits_quote c

theorem words_body (a : String) (args : List String) :
    ((body (a :: args)).splitOnP splits).map word = a :: args := by
  induction args generalizing a with
  | nil => rw [body, List.splitOnP_eq_singleton splits_of_mem_quote, List.map_singleton, word_quote]
  | cons b rest ih =>
    rw [body, List.splitOnP_append_cons_of_forall_mem splits_of_mem_quote comma rfl, List.map_cons, word_quote, ih]

theorem body_ne_nil {a : String} {args : List String} (h : a :: args ≠ [""]) : body (a :: args) ≠ [] := by
  cases args with
  | nil =>
    rw [body, ne_eq, List.map_eq_nil_iff, String.toList_eq_nil_iff]
    rintro rfl
    exact h rfl
  | cons b rest => simp [body]

theorem arguments_body {args : List String} (h : args ≠ [""]) : arguments (body args) = args := by
  cases args with
  | nil => rfl
  | cons a args => rw [arguments, if_neg (by simpa using body_ne_nil h), words_body]

end Piece

theorem Command.Says.args_ne {c : Char} {args : List String} {phrase : Phrase} (h : Says c args phrase) :
    args ≠ [""] := by
  intro hargs
  cases h with
  | sleep ha =>
    cases hargs
    cases ha
  | scrollDown ha =>
    cases hargs
    exact absurd ha (by decide)
  | beginLoop _ ha =>
    cases hargs
    cases ha
  | clickKey =>
    have hnone : Key.ofName? "" = none := by decide
    cases hnone.symm.trans (Key.ofName?_eq_some.mpr (List.cons.inj hargs).1.symm)
  | clickButton =>
    have hnone : Button.ofName? "" = none := by decide
    cases hnone.symm.trans (Button.ofName?_eq_some.mpr (List.cons.inj hargs).1.symm)
  | _ => exact absurd hargs (by simp)

def Token.saying (c : Char) (args : List String) : Token :=
  .bracketed c (Piece.body args)

theorem Token.means_saying {ignoreSpace : Bool} {c : Char} {args : List String} {phrase : Phrase}
    (h : Command.Says c args phrase) : (saying c args).Means ignoreSpace phrase :=
  .bracketed (by rwa [Piece.arguments_body h.args_ne])

end InputScript
