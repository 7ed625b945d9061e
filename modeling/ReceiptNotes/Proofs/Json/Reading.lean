import ReceiptNotes.Json.Reader
import ReceiptNotes.Proofs.Json.Literal

/-! # Every written value is read

In whatever way a JSON value is written, the reader finds it: from any state in which a
value may begin, and whatever follows, it goes over the whole of the written form and
comes to the state in which the value has been read (`Json.Written.readOn`). So a text
that is a written value is read as that value (`Json.ofText?_written`).
-/

namespace ReceiptNotes.Json

open State (complete begin?)

variable {state after : State} {stack : List Frame} {text rest space : Text}

/-! ## Tokens -/

theorem readFrom_eq (state : State) (text : Text) :
    readFrom state text = match text.dropWhile isSpace with
      | [] => state.result?
      | c :: behind => (Token.ofFront? (c :: behind)).bind fun (token, rest) =>
          (state.feed? token).bind fun after => readFrom after rest := by
  rw [readFrom]
  split
  next htext => rw [htext]
  next c behind htext =>
      rw [htext]
      dsimp only
      split
      next hnone => rw [hnone, Option.bind_none]
      next token rest hsome =>
          rw [hsome, Option.bind_some]
          dsimp only
          split
          next hfeed => rw [hfeed, Option.bind_none]
          next hfeed => rw [hfeed, Option.bind_some]

/-- Whitespace is skipped. -/
theorem readFrom_blank_append (h : Blank space) :
    readFrom state (space ++ text) = readFrom state text := by
  rw [readFrom_eq, readFrom_eq, List.dropWhile_append_of_pos h]

/-- A token is read off the front, and the state is fed with it. -/
theorem readFrom_token {token : Token} (hspace : ∀ c ∈ text.head?, isSpace c = false)
    (h : Token.ofFront? text = some (token, rest)) :
    readFrom state text = (state.feed? token).bind fun after => readFrom after rest := by
  cases text with
  | nil => simp [Token.ofFront?] at h
  | cons c behind =>
      have hc := hspace c rfl
      rw [readFrom_eq, List.dropWhile_cons_of_neg (by simp [hc])]
      simp only [h, Option.bind_some]

/-! ## Where values and keys may begin -/

/-- In the state, a value may begin that is to go to the top of the stack. -/
inductive AwaitsValue : State → List Frame → Prop where
  | value {stack : List Frame} : AwaitsValue (.value stack) stack
  | firstItem {stack : List Frame} : AwaitsValue (.firstItem stack) (.item [] :: stack)

/-- In the state, a key may begin behind some members of an object. -/
inductive AwaitsKey : State → List (Content × Json) → List Frame → Prop where
  | key {before : List (Content × Json)} {stack : List Frame} :
      AwaitsKey (.key before stack) before stack
  | firstKey {stack : List Frame} : AwaitsKey (.firstKey stack) [] stack

theorem AwaitsValue.feed? (h : AwaitsValue state stack) {token : Token}
    (htoken : token ≠ .closeArray) : state.feed? token = begin? token stack := by
  cases h with
  | value => cases token <;> rfl
  | firstItem =>
      cases token with
      | closeArray => exact absurd rfl htoken
      | _ => rfl

theorem AwaitsKey.feed? {before : List (Content × Json)} (h : AwaitsKey state before stack)
    (content : Content) : state.feed? (.string content) = some (.colon before content stack) := by
  cases h with
  | key => rfl
  | firstKey => rfl

/-! ## Literals -/

theorem ofFront?_string {content : Content} (h : WrittenString content text) :
    Token.ofFront? (text ++ rest) = some (.string content, rest) := by
  obtain ⟨units, body, hunits, rfl, rfl⟩ := h.content_eq
  simp [Token.ofFront?, units?_append hunits]

theorem WrittenString.isSpace_head? {content : Content} (h : WrittenString content text) :
    ∀ c ∈ (text ++ rest).head?, isSpace c = false := by
  obtain ⟨units, body, -, rfl, -⟩ := h
  exact forall_mem_head?_cons.mpr rfl

theorem ofFront?_number {literal : Text} (h : WrittenNumber literal) (hrest : EndsNumber rest) :
    Token.ofFront? (literal ++ rest) = some (.number literal, rest) := by
  obtain ⟨c, behind, hcons⟩ : ∃ c behind, literal ++ rest = c :: behind :=
    List.exists_cons_of_ne_nil (by simp [h.ne_nil])
  have hnumber := number?_append h hrest
  have hfront : c ∈ (literal ++ rest).head? := by
    rw [hcons]
    rfl
  have hc := head?_number_append h c hfront
  rw [hcons] at hnumber ⊢
  rw [Token.ofFront?, hnumber]
  · rfl
  · simp
  -- No other token starts with a sign or a digit.
  all_goals
    intro later heq
    obtain ⟨rfl, -⟩ := List.cons.inj heq
    simp at hc

theorem WrittenNumber.isSpace_head? {literal : Text} (h : WrittenNumber literal) :
    ∀ c ∈ (literal ++ rest).head?, isSpace c = false := by
  intro c hc
  by_contra hspace
  have hfront := head?_number_append h c hc
  simp only [isSpace, Bool.not_eq_false, Bool.or_eq_true, decide_eq_true_eq] at hspace
  rcases hspace with ((rfl | rfl) | rfl) | rfl <;> simp at hfront

theorem word?_append (word rest : Text) (token : Token) :
    Token.word? word token (word ++ rest) = some (token, rest) := by
  simp [Token.word?]

/-! ## Values -/

/-- Whitespace, or a token that is no number, does not go on with a number. -/
theorem EndsNumber.of_blank_append (h : Blank space) (hrest : EndsNumber rest) :
    EndsNumber (space ++ rest) := by
  cases space with
  | nil => exact hrest
  | cons c space =>
      refine forall_mem_head?_cons.mpr ?_
      have hspace := h c List.mem_cons_self
      simp only [isSpace, Bool.or_eq_true, decide_eq_true_eq] at hspace
      rcases hspace with ((rfl | rfl) | rfl) | rfl <;> decide

theorem EndsNumber.of_mark {c : Char} (h : c ∈ [',', ']', '\x7d']) : EndsNumber (c :: rest) := by
  refine forall_mem_head?_cons.mpr ?_
  simp only [List.mem_cons, List.not_mem_nil, or_false] at h
  rcases h with rfl | rfl | rfl <;> decide

/-- What the reader makes of a written phrase, from any state in which the phrase may
begin. Items and members are those up to the bracket that closes them. -/
def ReadOn : Phrase → Text → Prop
  | .value json, text | .spaced json, text => ∀ ⦃state stack rest⦄, AwaitsValue state stack →
      EndsNumber rest → readFrom state (text ++ rest) = readFrom (complete json stack) rest
  | .items items, text => ∀ ⦃state before stack rest⦄,
      AwaitsValue state (.item before :: stack) →
      readFrom state (text ++ ']' :: rest) =
        readFrom (complete (.array (before.reverse ++ items)) stack) rest
  | .members members, text => ∀ ⦃state before stack rest⦄, AwaitsKey state before stack →
      readFrom state (text ++ '\x7d' :: rest) =
        readFrom (complete (.object (before.reverse ++ members)) stack) rest

theorem readOn_token {json : Json} {token : Token}
    (hspace : ∀ rest, ∀ c ∈ (text ++ rest).head?, isSpace c = false)
    (htoken : ∀ rest, EndsNumber rest → Token.ofFront? (text ++ rest) = some (token, rest))
    (hbegin : ∀ stack, begin? token stack = some (complete json stack)) :
    ReadOn (.value json) text := by
  intro state stack rest hawaits hends
  have hne : token ≠ .closeArray := by
    rintro rfl
    simpa [begin?] using hbegin []
  rw [readFrom_token (hspace rest) (htoken rest hends), hawaits.feed? hne, hbegin,
    Option.bind_some]

theorem readOn_word {json : Json} {token : Token} (c : Char) (word : Text)
    (hspace : isSpace c = false)
    (htoken : ∀ rest, Token.ofFront? (c :: (word ++ rest)) = Token.word? word token (word ++ rest))
    (hbegin : ∀ stack, begin? token stack = some (complete json stack)) :
    ReadOn (.value json) (c :: word) :=
  readOn_token (fun _ => forall_mem_head?_cons.mpr hspace)
    (fun rest _ => (htoken rest).trans (word?_append word rest token)) hbegin

/-- A mark of punctuation is a token by itself. -/
theorem readFrom_mark {c : Char} (token : Token) (hspace : isSpace c = false)
    (h : Token.ofFront? (c :: rest) = some (token, rest)) :
    readFrom state (c :: rest) = (state.feed? token).bind fun after => readFrom after rest :=
  readFrom_token (forall_mem_head?_cons.mpr hspace) h

/-- Behind a key and its colon, the value of a member may begin. -/
theorem readFrom_key {key : Content} {label : Text} {before : List (Content × Json)}
    (hkey : WrittenKey key label) (h : AwaitsKey state before stack) :
    readFrom state (label ++ ':' :: rest) =
      readFrom (.value (.member before key :: stack)) rest := by
  obtain ⟨space, label, space', hbefore, hlabel, hbehind, rfl⟩ := hkey
  rw [List.append_assoc, List.append_assoc, readFrom_blank_append hbefore,
    readFrom_token hlabel.isSpace_head? (ofFront?_string hlabel), h.feed?, Option.bind_some,
    readFrom_blank_append hbehind, readFrom_mark .colon rfl rfl]
  rfl

/-- The reader goes over every written phrase as a whole. -/
theorem Written.readOn {phrase : Phrase} (h : Written phrase text) : ReadOn phrase text := by
  -- Along the written form: a bracket opens a frame, and what is inside is read by induction.
  induction h with
  | null => exact readOn_word 'n' "ull".toList rfl (fun _ => rfl) fun _ => rfl
  | true => exact readOn_word 't' "rue".toList rfl (fun _ => rfl) fun _ => rfl
  | false => exact readOn_word 'f' "alse".toList rfl (fun _ => rfl) fun _ => rfl
  | number h =>
      exact readOn_token (fun _ => h.isSpace_head?) (fun _ => ofFront?_number h) fun _ => rfl
  | string h =>
      exact readOn_token (fun _ => h.isSpace_head?) (fun _ _ => ofFront?_string h) fun _ => rfl
  | emptyArray h =>
      intro state stack rest hawaits _
      rw [List.append_assoc, List.append_assoc, List.singleton_append,
        readFrom_mark .openArray rfl rfl, hawaits.feed? (by simp), begin?,
        Option.bind_some, readFrom_blank_append h, List.singleton_append,
        readFrom_mark .closeArray rfl rfl]
      rfl
  | array _ ih =>
      intro state stack rest hawaits _
      rw [List.append_assoc, List.append_assoc, List.singleton_append,
        readFrom_mark .openArray rfl rfl, hawaits.feed? (by simp), begin?,
        Option.bind_some]
      exact ih .firstItem
  | emptyObject h =>
      intro state stack rest hawaits _
      rw [List.append_assoc, List.append_assoc, List.singleton_append,
        readFrom_mark .openObject rfl rfl, hawaits.feed? (by simp), begin?,
        Option.bind_some, readFrom_blank_append h, List.singleton_append,
        readFrom_mark .closeObject rfl rfl]
      rfl
  | object _ ih =>
      intro state stack rest hawaits _
      rw [List.append_assoc, List.append_assoc, List.singleton_append,
        readFrom_mark .openObject rfl rfl, hawaits.feed? (by simp), begin?,
        Option.bind_some]
      exact ih .firstKey
  | spaced hbefore _ hbehind ih =>
      intro state stack rest hawaits hends
      rw [List.append_assoc, List.append_assoc, readFrom_blank_append hbefore,
        ih hawaits (hends.of_blank_append hbehind), readFrom_blank_append hbehind]
  | lastItem _ ih =>
      intro state before stack rest hawaits
      rw [ih hawaits (.of_mark (by simp)), complete, readFrom_mark .closeArray rfl rfl,
        State.feed?, Option.bind_some, List.reverse_cons]
  | item _ _ ih ihlater =>
      intro state before stack rest hawaits
      rw [List.append_assoc, List.append_assoc, List.singleton_append,
        ih hawaits (.of_mark (by simp)), complete, readFrom_mark .comma rfl rfl,
        State.feed?, Option.bind_some, ihlater .value, List.reverse_cons, List.append_assoc]
      rfl
  | lastMember hkey _ ih =>
      intro state before stack rest hawaits
      rw [List.append_assoc, List.append_assoc, List.singleton_append, readFrom_key hkey hawaits,
        ih .value (.of_mark (by simp)), complete, readFrom_mark .closeObject rfl rfl,
        State.feed?, Option.bind_some, List.reverse_cons]
  | member hkey _ _ ih ihlater =>
      intro state before stack rest hawaits
      rw [List.append_assoc, List.append_assoc, List.append_assoc, List.append_assoc,
        List.singleton_append, readFrom_key hkey hawaits, List.singleton_append,
        ih .value (.of_mark (by simp)), complete, readFrom_mark .comma rfl rfl,
        State.feed?, Option.bind_some, ihlater .key, List.reverse_cons, List.append_assoc]
      rfl

/-- A text that is a value with whitespace around it is read as that value. -/
theorem ofText?_written {json : Json} (h : Written (.spaced json) text) :
    ofText? text = some json := by
  have hread : readFrom (.value []) (text ++ []) = readFrom (complete json []) [] :=
    h.readOn .value (by simp [EndsNumber])
  rw [List.append_nil] at hread
  rw [ofText?, hread, complete, readFrom_eq]
  rfl

end ReceiptNotes.Json
