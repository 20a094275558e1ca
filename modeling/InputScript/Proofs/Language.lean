import InputScript.Proofs.Meaning
import InputScript.Script.Compile

namespace InputScript

namespace Phrase

def places (phrases : List Phrase) : List Point :=
  phrases.filterMap place?

@[simp] theorem places_nil : places [] = [] := rfl

@[simp] theorem places_emit (instructions : List Instruction) (phrases : List Phrase) :
    places (.emit instructions :: phrases) = places phrases := rfl

@[simp] theorem places_move (place : Point) (phrases : List Phrase) :
    places (.move place :: phrases) = place :: places phrases := rfl

theorem length_places_cons (phrase : Phrase) (phrases : List Phrase) :
    (places (phrase :: phrases)).length = (places [phrase]).length + (places phrases).length := by
  cases phrase with
  | emit instructions => simp
  | move place => simp [Nat.add_comm]

def numbered : Nat → List Phrase → List (Opcode × Nat)
  | _, [] => []
  | n, .emit instructions :: rest =>
    instructions.map (fun i => (i.opcode, i.operand)) ++ numbered n rest
  | n, .move _ :: rest => (.pointerGoto, n) :: numbered (n + 1) rest

end Phrase

namespace Program

variable {p q r : Program} {phrase : Phrase} {phrases : List Phrase}

def pairs (p : Program) : List (Opcode × Nat) :=
  p.instructions.toList.map fun i => (i.opcode, i.operand)

structure Extends (q p : Program) (phrases : List Phrase) : Prop where
  pairs : q.pairs = p.pairs ++ Phrase.numbered p.positions.size phrases
  positions : q.positions.toList = p.positions.toList ++ Phrase.places phrases

theorem extends_nil (p : Program) : p.Extends p [] :=
  ⟨(List.append_nil _).symm, (List.append_nil _).symm⟩

theorem Extends.size_eq (h : q.Extends p phrases) :
    q.positions.size = p.positions.size + (Phrase.places phrases).length := by
  rw [← Array.length_toList, ← Array.length_toList, h.positions, List.length_append]

theorem Extends.cons (h : q.Extends p [phrase]) (h' : r.Extends q phrases) :
    r.Extends p (phrase :: phrases) := by
  have hsize := h.size_eq
  obtain ⟨hpairs, hpositions⟩ := h
  obtain ⟨hpairs', hpositions'⟩ := h'
  cases phrase with
  | emit instructions =>
    constructor
    · rw [hpairs', hpairs, hsize]
      simp [Phrase.numbered]
    · rw [hpositions', hpositions]
      simp
  | move place =>
    constructor
    · rw [hpairs', hpairs, hsize]
      simp [Phrase.numbered]
    · rw [hpositions', hpositions]
      simp

theorem extends_of_add (h : p.add phrase = .ok q) : q.Extends p [phrase] := by
  cases phrase with
  | emit instructions =>
    cases h
    constructor
    · simp [pairs, Phrase.numbered]
    · simp
  | move place =>
    unfold add at h
    split_ifs at h with hsize
    cases h
    constructor
    · simp [pairs, Phrase.numbered]
    · simp

theorem lt_of_add_move {place : Point} (h : p.add (.move place) = .ok q) : p.positions.size < 8192 := by
  unfold add at h
  split_ifs at h with hsize
  exact Nat.lt_succ_of_le hsize

theorem size_le_of_add (h : p.add phrase = .ok q) (hp : p.positions.size ≤ 8192) :
    q.positions.size ≤ 8192 := by
  rw [(extends_of_add h).size_eq]
  cases phrase with
  | emit instructions => exact hp
  | move place => exact lt_of_add_move h

theorem add_eq_error {f : Fault} (h : p.add phrase = .error f) :
    (∃ place, phrase = .move place) ∧ 8192 ≤ p.positions.size ∧ f = .tooManyPositions := by
  cases phrase with
  | emit instructions => cases h
  | move place =>
    unfold add at h
    split_ifs at h with hsize
    cases h
    exact ⟨⟨place, rfl⟩, Nat.not_le.mp hsize, rfl⟩

theorem exists_add (p : Program) (phrase : Phrase)
    (h : p.positions.size + (Phrase.places [phrase]).length ≤ 8192) :
    ∃ q, p.add phrase = .ok q := by
  cases phrase with
  | emit instructions => exact ⟨_, rfl⟩
  | move place =>
    have hsize : p.positions.size ≤ maxOperand := Nat.le_of_succ_le_succ h
    exact ⟨_, dif_pos hsize⟩

theorem extends_of_adds (h : phrases.foldlM add p = .ok q) : q.Extends p phrases := by
  induction phrases generalizing p with
  | nil =>
    cases h
    exact extends_nil _
  | cons phrase phrases ih =>
    obtain ⟨r, hr, hrest⟩ := bind_eq_ok.mp h
    exact (extends_of_add hr).cons (ih hrest)

theorem size_le_of_adds (h : phrases.foldlM add p = .ok q) (hp : p.positions.size ≤ 8192) :
    q.positions.size ≤ 8192 := by
  induction phrases generalizing p with
  | nil =>
    cases h
    exact hp
  | cons phrase phrases ih =>
    obtain ⟨r, hr, hrest⟩ := bind_eq_ok.mp h
    exact ih hrest (size_le_of_add hr hp)

theorem exists_adds (h : p.positions.size + (Phrase.places phrases).length ≤ 8192) :
    ∃ q, phrases.foldlM add p = .ok q := by
  induction phrases generalizing p with
  | nil => exact ⟨p, rfl⟩
  | cons phrase phrases ih =>
    have hcount := Phrase.length_places_cons phrase phrases
    obtain ⟨r, hr⟩ := exists_add p phrase (by omega)
    have hsize := (extends_of_add hr).size_eq
    obtain ⟨q, hq⟩ := ih (p := r) (by omega)
    exact ⟨q, bind_eq_ok.mpr ⟨r, hr, hq⟩⟩

end Program

namespace Body

variable {b : Body}

def take (b : Body) (piece : Piece) : Body :=
  if piece.splits then ⟨String.ofList b.word.reverse :: b.complete, [], false⟩
  else ⟨b.complete, piece.char :: b.word, false⟩

theorem take_escaped (b : Body) (piece : Piece) : (b.take piece).escaped = false := by
  unfold take
  split_ifs <;> rfl

theorem foldl_take_escaped (hb : b.escaped = false) (pieces : List Piece) :
    (pieces.foldl take b).escaped = false := by
  induction pieces generalizing b with
  | nil => exact hb
  | cons piece pieces ih => exact ih (b.take_escaped piece)

theorem step_plain {c : Char} (hb : b.escaped = false) (hclose : c ≠ ']') (hescape : c ≠ '\\') :
    b.step c = .more (b.take (.plain c hclose hescape)) := by
  by_cases hcomma : c = ','
  · subst hcomma
    simp [step, take, hb, Piece.splits]
  · simp [step, take, hb, Piece.splits, hclose, hescape, hcomma, Piece.char]

theorem step_backslash (hb : b.escaped = false) : b.step '\\' = .more { b with escaped := true } := by
  simp [step, hb]

theorem step_escaped (b : Body) (c : Char) :
    { b with escaped := true }.step c = .more (b.take (.escaped c)) := by
  simp [step, take, Piece.splits, Piece.char]

theorem step_close (hb : b.escaped = false) : b.step ']' = .closed b.arguments := by
  simp [step, hb]

def words (b : Body) : List String :=
  (String.ofList b.word.reverse :: b.complete).reverse

theorem words_foldl_take (pieces : List Piece) (complete : List String) (word : List Piece) :
    (pieces.foldl take ⟨complete, word.map Piece.char, false⟩).words =
      complete.reverse ++ (pieces.splitOnPPrepend Piece.splits word).map Piece.word := by
  induction pieces generalizing complete word with
  | nil => simp [words, Piece.word]
  | cons piece pieces ih =>
    rw [List.foldl_cons, take]
    split_ifs with hsplits
    · have hrest := ih (Piece.word word.reverse :: complete) []
      simp only [List.map_nil, Piece.word, List.map_reverse] at hrest
      rw [hrest, List.splitOnPPrepend_cons_pos hsplits]
      simp [Piece.word]
    · rw [List.splitOnPPrepend_cons_neg (Bool.eq_false_iff.mpr hsplits)]
      exact ih complete (piece :: word)

theorem arguments_foldl_take (pieces : List Piece) :
    (pieces.foldl take empty).arguments = Piece.arguments pieces := by
  rcases List.eq_nil_or_concat' pieces with rfl | ⟨init, last, rfl⟩
  · rfl
  · have hsome (b : Body) : ¬ ((b.take last).complete.isEmpty && (b.take last).word.isEmpty) = true := by
      unfold take
      split_ifs <;> simp
    have hwords := words_foldl_take (init ++ [last]) [] []
    rw [List.foldl_append] at hwords ⊢
    unfold arguments Piece.arguments
    rw [if_neg, if_neg]
    · exact hwords
    · simp
    · exact hsome (init.foldl take empty)

end Body

def Command.phrase (c : Char) (args : List String) : Except Fault Phrase :=
  match ofChar? c with
  | some command => Phrase.ofCommand command args
  | none => .error (.unknownCommand c)

theorem Command.phrase_eq_ok {c : Char} {args : List String} {phrase : Phrase} :
    Command.phrase c args = .ok phrase ↔ Says c args phrase := by
  rw [says_iff, Command.phrase]
  cases ofChar? c <;> simp

def Token.phrase (ignoreSpace : Bool) : Token → Except Fault Phrase
  | char c => Phrase.ofChar ignoreSpace c
  | short c => Command.phrase c []
  | bracketed c body => Command.phrase c (Piece.arguments body)

theorem Token.phrase_eq_ok {ignoreSpace : Bool} {t : Token} {phrase : Phrase} :
    t.phrase ignoreSpace = .ok phrase ↔ t.Means ignoreSpace phrase := by
  cases t with
  | char c => exact ofChar_eq_ok
  | short c =>
    rw [Token.phrase, Command.phrase_eq_ok]
    exact ⟨.short, fun h => by cases h; assumption⟩
  | bracketed c body =>
    rw [Token.phrase, Command.phrase_eq_ok]
    exact ⟨.bracketed, fun h => by cases h; assumption⟩

namespace Reader

variable {ignoreSpace : Bool} {p q : Program} {start here : Location} {command : Command} {phrase : Phrase}
  {t : Token} {cs rest : List Char}

def take (p : Program) (start here : Location) (x : Except Fault Phrase) : Except ScriptError Reader := do
  let phrase ← Fault.locate start x
  let q ← Fault.locate start (p.add phrase)
  return ⟨.between, here, q⟩

theorem take_eq_ok_iff {x : Except Fault Phrase} {r : Reader} : take p start here x = .ok r ↔
    ∃ phrase q, x = .ok phrase ∧ p.add phrase = .ok q ∧ r = ⟨.between, here, q⟩ := by
  have hlocate {α : Type} {y : Except Fault α} {a : α} : Fault.locate start y = .ok a ↔ y = .ok a := by
    cases y <;> simp [Fault.locate]
  simp only [take, bind_eq_ok, hlocate, pure, Except.pure, Except.ok.injEq]
  constructor
  · rintro ⟨phrase, hphrase, q, hq, rfl⟩
    exact ⟨phrase, q, hphrase, hq, rfl⟩
  · rintro ⟨phrase, q, hphrase, hq, rfl⟩
    exact ⟨phrase, hphrase, q, hq, rfl⟩

theorem read_more {b b' : Body} {c : Char} (h : b.step c = .more b') :
    (⟨.arguments start command b, here, p⟩ : Reader).read ignoreSpace (c :: cs) =
      (⟨.arguments start command b', here.next c, p⟩ : Reader).read ignoreSpace cs := by
  rw [read_cons, step, h]
  rfl

theorem read_pieces (pieces : List Piece) {b : Body} (hb : b.escaped = false) :
    (⟨.arguments start command b, here, p⟩ : Reader).read ignoreSpace
        (pieces.flatMap Piece.text ++ rest) =
      (⟨.arguments start command (pieces.foldl Body.take b), here.after (pieces.flatMap Piece.text), p⟩ :
        Reader).read ignoreSpace rest := by
  induction pieces generalizing b here with
  | nil => rfl
  | cons piece pieces ih =>
    rw [List.flatMap_cons, List.append_assoc, List.foldl_cons, Location.after_append]
    rw [← ih (b.take_escaped piece)]
    cases piece with
    | plain c hclose hescape =>
      rw [Piece.text, List.singleton_append, read_more (Body.step_plain hb hclose hescape)]
      rfl
    | escaped c =>
      rw [Piece.text, List.cons_append, List.singleton_append, read_more (Body.step_backslash hb),
        read_more (Body.step_escaped b c)]
      rfl

theorem read_backslash : (⟨.between, here, p⟩ : Reader).read ignoreSpace ('\\' :: rest) =
    (⟨.escaped here, here.next '\\', p⟩ : Reader).read ignoreSpace rest := by
  rw [read_cons]
  rfl

theorem read_bracket : (⟨.escaped start, here, p⟩ : Reader).read ignoreSpace ('[' :: rest) =
    (⟨.bracketed start, here.next '[', p⟩ : Reader).read ignoreSpace rest := by
  rw [read_cons]
  rfl

theorem read_bracketed (c : Char) (body : List Piece) :
    (⟨.bracketed start, here, p⟩ : Reader).read ignoreSpace (c :: (body.flatMap Piece.text ++ ']' :: rest)) =
      (take p start (((here.next c).after (body.flatMap Piece.text)).next ']')
        (Command.phrase c (Piece.arguments body))).bind (·.read ignoreSpace rest) := by
  rw [read_cons]
  simp only [step, Command.phrase]
  cases Command.ofChar? c with
  | none => rfl
  | some command =>
    have hb : (body.foldl Body.take .empty).escaped = false := Body.foldl_take_escaped rfl body
    change read ignoreSpace _ _ = _
    rw [read_pieces body rfl, read_cons, step, Body.step_close hb, Body.arguments_foldl_take]
    rfl

theorem read_token (ht : t.Formed) : (⟨.between, here, p⟩ : Reader).read ignoreSpace (t.text ++ rest) =
    (take p here (here.after t.text) (t.phrase ignoreSpace)).bind (·.read ignoreSpace rest) := by
  cases t with
  | char c =>
    have hc : c ≠ '\\' := ht
    rw [Token.text, List.singleton_append, read_cons, step, if_neg hc]
    rfl
  | short c =>
    have hc : c ≠ '[' := ht
    rw [Token.text, List.cons_append, List.singleton_append, read_backslash, read_cons, step, if_neg hc, Token.phrase,
      Command.phrase]
    cases Command.ofChar? c <;> rfl
  | bracketed c body =>
    have htext : (Token.bracketed c body).text ++ rest =
        '\\' :: '[' :: c :: (body.flatMap Piece.text ++ ']' :: rest) := by
      simp [Token.text]
    have hhere : here.after (Token.bracketed c body).text =
        ((((here.next '\\').next '[').next c).after (body.flatMap Piece.text)).next ']' := by
      simp [Token.text]
    rw [htext, hhere, read_backslash, read_bracket]
    exact read_bracketed c body

theorem read_token_eq_ok (ht : t.Formed) :
    (⟨.between, here, p⟩ : Reader).read ignoreSpace (t.text ++ rest) = .ok q ↔
      ∃ phrase r, t.Means ignoreSpace phrase ∧ p.add phrase = .ok r ∧
        (⟨.between, here.after t.text, r⟩ : Reader).read ignoreSpace rest = .ok q := by
  have hbind {x : Except ScriptError Reader} : x.bind (·.read ignoreSpace rest) = .ok q ↔
      ∃ r, x = .ok r ∧ r.read ignoreSpace rest = .ok q := bind_eq_ok
  simp only [read_token ht, hbind, take_eq_ok_iff, Token.phrase_eq_ok]
  constructor
  · rintro ⟨_, ⟨phrase, r, hmeans, hr, rfl⟩, hrest⟩
    exact ⟨phrase, r, hmeans, hr, hrest⟩
  · rintro ⟨phrase, r, hmeans, hr, hrest⟩
    exact ⟨_, ⟨phrase, r, hmeans, hr, rfl⟩, hrest⟩

theorem exists_pieces {b : Body} {here : Location} {cs : List Char} (hb : b.escaped = false)
    (h : (⟨.arguments start command b, here, p⟩ : Reader).read ignoreSpace cs = .ok q) :
    ∃ (pieces : List Piece) (rest : List Char), cs = pieces.flatMap Piece.text ++ ']' :: rest := by
  cases cs with
  | nil => cases h
  | cons c cs =>
    by_cases hclose : c = ']'
    · subst hclose
      exact ⟨[], cs, rfl⟩
    by_cases hescape : c = '\\'
    · subst hescape
      rw [read_more (Body.step_backslash hb)] at h
      cases cs with
      | nil => cases h
      | cons d cs =>
        rw [read_more (Body.step_escaped b d)] at h
        obtain ⟨pieces, rest, rfl⟩ := exists_pieces (b.take_escaped (.escaped d)) h
        exact ⟨.escaped d :: pieces, rest, rfl⟩
    · rw [read_more (Body.step_plain hb hclose hescape)] at h
      obtain ⟨pieces, rest, rfl⟩ := exists_pieces (b.take_escaped (.plain c hclose hescape)) h
      exact ⟨.plain c hclose hescape :: pieces, rest, rfl⟩
termination_by cs.length

theorem exists_token {c : Char}
    (h : (⟨.between, here, p⟩ : Reader).read ignoreSpace (c :: cs) = .ok q) :
    ∃ (t : Token) (rest : List Char), t.Formed ∧ c :: cs = t.text ++ rest := by
  by_cases hescape : c ≠ '\\'
  · exact ⟨.char c, cs, hescape, rfl⟩
  obtain rfl := not_not.mp hescape
  cases cs with
  | nil => cases h
  | cons d cs =>
    by_cases hopen : d ≠ '['
    · exact ⟨.short d, cs, hopen, rfl⟩
    obtain rfl := not_not.mp hopen
    cases cs with
    | nil => cases h
    | cons e cs =>
      rw [read_backslash, read_bracket, read_cons] at h
      obtain ⟨r, hr, hbody⟩ := bind_eq_ok.mp h
      obtain ⟨command, rfl⟩ : ∃ command, r = ⟨.arguments here command .empty,
          ((here.next '\\').next '[').next e, p⟩ := by
        simp only [step] at hr
        generalize Command.ofChar? e = found at hr
        cases found with
        | none => cases hr
        | some command =>
          cases hr
          exact ⟨command, rfl⟩
      obtain ⟨body, rest, rfl⟩ := exists_pieces rfl hbody
      exact ⟨.bracketed e body, rest, trivial, by simp [Token.text]⟩

theorem tokens_of_read {here : Location} {p : Program} {cs : List Char}
    (h : (⟨.between, here, p⟩ : Reader).read ignoreSpace cs = .ok q) :
    ∃ tokens phrases, tokens.flatMap Token.text = cs ∧
      List.Forall₂ (Token.Means ignoreSpace) tokens phrases ∧ phrases.foldlM Program.add p = .ok q := by
  cases cs with
  | nil =>
    cases h
    exact ⟨[], [], rfl, .nil, rfl⟩
  | cons c cs =>
    obtain ⟨t, rest, ht, htext⟩ := exists_token h
    rw [htext] at h
    obtain ⟨phrase, r, hmeans, hr, hrest⟩ := (read_token_eq_ok ht).mp h
    have hshorter : rest.length < cs.length + 1 := by
      have hlength := congrArg List.length htext
      have hnonempty : 1 ≤ t.text.length := by cases t <;> simp [Token.text]
      rw [List.length_append, List.length_cons] at hlength
      omega
    obtain ⟨tokens, phrases, hread, hphrases, hadds⟩ := tokens_of_read hrest
    refine ⟨t :: tokens, phrase :: phrases, ?_, .cons hmeans hphrases, bind_eq_ok.mpr ⟨r, hr, hadds⟩⟩
    rw [htext, List.flatMap_cons, hread]
termination_by cs.length

theorem read_of_tokens {tokens : List Token} {phrases : List Phrase}
    (hmeans : List.Forall₂ (Token.Means ignoreSpace) tokens phrases)
    (hadds : phrases.foldlM Program.add p = .ok q) :
    (⟨.between, here, p⟩ : Reader).read ignoreSpace (tokens.flatMap Token.text) = .ok q := by
  induction hmeans generalizing here p with
  | nil =>
    cases hadds
    rfl
  | @cons t phrase tokens phrases ht _ ih =>
    obtain ⟨r, hr, hrest⟩ := bind_eq_ok.mp hadds
    have hformed : t.Formed := ((Token.valid_iff ignoreSpace).mpr ⟨phrase, ht⟩).formed
    rw [List.flatMap_cons, read_token_eq_ok hformed]
    exact ⟨phrase, r, ht, hr, ih hrest⟩

end Reader

namespace Token

variable {ignoreSpace : Bool} {tokens : List Token} {phrases : List Phrase}

def Spell (tokens : List Token) (source : String) : Prop :=
  (∀ t ∈ tokens, t.Valid) ∧ tokens.flatMap text = source.toList

theorem exists_phrases (ignoreSpace : Bool) (h : ∀ t ∈ tokens, t.Valid) :
    ∃ phrases, List.Forall₂ (Means ignoreSpace) tokens phrases := by
  induction tokens with
  | nil => exact ⟨[], .nil⟩
  | cons t tokens ih =>
    obtain ⟨phrase, hphrase⟩ := (valid_iff ignoreSpace).mp (h t List.mem_cons_self)
    obtain ⟨phrases, hphrases⟩ := ih fun t ht => h t (List.mem_cons_of_mem _ ht)
    exact ⟨phrase :: phrases, .cons hphrase hphrases⟩

theorem phrases_unique {others : List Phrase} (h : List.Forall₂ (Means ignoreSpace) tokens phrases)
    (h' : List.Forall₂ (Means ignoreSpace) tokens others) : phrases = others := by
  induction h generalizing others with
  | nil =>
    cases h'
    rfl
  | cons hphrase _ ih =>
    obtain _ | ⟨hphrase', hrest'⟩ := h'
    obtain rfl := Except.ok.inj ((phrase_eq_ok.mpr hphrase).symm.trans (phrase_eq_ok.mpr hphrase'))
    rw [ih hrest']

theorem valid_of_phrases (h : List.Forall₂ (Means ignoreSpace) tokens phrases) :
    ∀ t ∈ tokens, t.Valid := by
  induction h with
  | nil => exact fun t ht => (nomatch ht)
  | cons hphrase _ ih =>
    intro t ht
    rcases List.mem_cons.mp ht with rfl | ht
    · exact (valid_iff ignoreSpace).mpr ⟨_, hphrase⟩
    · exact ih t ht

theorem Spell.unique {others : List Token} {source : String} (h : Spell tokens source) (h' : Spell others source) :
    tokens = others :=
  texts_inj (fun t ht => (h.1 t ht).formed) (fun t ht => (h'.1 t ht).formed) (h.2.trans h'.2.symm)

theorem length_places (h : List.Forall₂ (Means ignoreSpace) tokens phrases) :
    (Phrase.places phrases).length = tokens.countP isMove := by
  induction h with
  | nil => rfl
  | @cons t phrase _ _ hphrase _ ih =>
    have hmove := hphrase.isSome_place?
    cases phrase with
    | emit instructions =>
      rw [List.countP_cons_of_neg (by rw [← hmove]; exact Bool.false_ne_true)]
      exact ih
    | move place =>
      rw [List.countP_cons_of_pos (by rw [← hmove]; rfl), Phrase.places_move, List.length_cons, ih]

end Token

end InputScript
