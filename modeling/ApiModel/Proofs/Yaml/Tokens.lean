import ApiModel.Yaml.Token.Reading

/-!
# How many items the tokens of a text announce

Every item of a sequence has a mark of its own before it: the dash of a block sequence, or in a flow sequence
the bracket or a comma. Each mark is a character of the text. The tokens that indentation and late keys put
in are no marks, so one step of reading tokens adds one mark at most (`TokenState.marks_of_more`). It leaves
fewer characters as well, and so a text has no more marks than characters (`marks_of_tokens?`).
-/

namespace ApiModel.Yaml

/-! ## Repeated steps -/

section

variable {σ α : Type} {step : σ → Cursor → Option (Next σ α)} {I : σ → Cursor → Prop} {P : α → Prop}

/-- What each step keeps, and what follows from it when a step is done, holds of the result. -/
theorem Cursor.invariant_of_repeat?
    (hmore : ∀ state place state' place', I state place → step state place = some (.more state' place') →
      place'.left < place.left → I state' place')
    (hdone : ∀ state place result, I state place → step state place = some (.done result) → P result)
    {state : σ} {place : Cursor} (hstart : I state place) {result : α}
    (h : place.repeat? state step = some result) : P result := by
  induction hleft : place.left using Nat.strongRecOn generalizing state place with
  | _ left ih =>
    subst hleft
    rw [Cursor.repeat?] at h
    split at h
    · cases h
    · next hstep =>
      cases h
      exact hdone state place result hstart hstep
    · next state' place' hstep =>
      obtain ⟨hless, hrest⟩ := Option.ite_none_right_eq_some.1 h
      exact ih _ hless (hmore state place state' place' hstart hstep hless) hrest rfl

end

/-! ## Marks -/

/-- Whether a token announces an item of a sequence, or the first one of a sequence that may be empty. -/
def Token.isMark : Token → Bool
  | .blockEntry | .flowSequenceStart | .flowEntry => true
  | _ => false

/-- The number of marks among tokens. -/
def marks (tokens : List Token) : Nat := tokens.countP Token.isMark

variable {token : Token} {tokens : List Token}

@[simp]
theorem marks_nil : marks [] = 0 := rfl

theorem marks_cons_of_isMark (h : token.isMark) : marks (token :: tokens) = marks tokens + 1 :=
  List.countP_cons_of_pos h

theorem marks_cons_of_not_isMark (h : token.isMark = false) : marks (token :: tokens) = marks tokens :=
  List.countP_cons_of_neg (by simp [h])

theorem marks_le_cons : marks tokens ≤ marks (token :: tokens) :=
  (List.sublist_cons_self token tokens).countP_le

theorem marks_cons_le : marks (token :: tokens) ≤ marks tokens + 1 := by
  rw [marks, List.countP_cons, marks]
  split <;> omega

theorem marks_reverse : marks tokens.reverse = marks tokens := List.countP_reverse

namespace TokenState

variable {s s' : TokenState} {here : Cursor}

/-! ## Steps between the tokens of a text -/

theorem marks_insert (position : Nat) (h : token.isMark = false) :
    marks (s.insert position token).tokens = marks s.tokens := by
  rw [insert, marks, List.countP_append, List.countP_cons_of_neg (by simp [h]), ← List.countP_append,
    List.take_append_drop, marks]

theorem marks_openBlock (column position : Nat) (h : token.isMark = false) :
    marks (s.openBlock column position token).tokens = marks s.tokens := by
  unfold openBlock
  split
  · rfl
  · exact marks_insert position h

theorem marks_closeBlocks (s : TokenState) (column : Int) (columns : List Int) :
    marks (s.closeBlocks column columns).tokens = marks s.tokens := by
  induction columns generalizing s with
  | nil => rfl
  | cons next columns ih =>
    rw [closeBlocks]
    split
    · exact (ih _).trans (marks_cons_of_not_isMark rfl)
    · rfl

theorem marks_closeDeeper (s : TokenState) (column : Int) :
    marks (s.closeDeeper column).tokens = marks s.tokens := by
  unfold closeDeeper
  split
  · rfl
  · exact marks_closeBlocks s column s.outer

theorem tokens_setKey (s : TokenState) (key : Option SimpleKey) : (s.setKey key).tokens = s.tokens := by
  unfold setKey
  split <;> rfl

theorem tokens_forgetKey? (h : s.forgetKey? = some s') : s'.tokens = s.tokens := by
  obtain ⟨-, heq⟩ := Option.ite_none_left_eq_some.1 h
  cases heq
  exact tokens_setKey s none

theorem tokens_rememberKey? (h : s.rememberKey? here = some s') : s'.tokens = s.tokens := by
  unfold rememberKey? at h
  split at h
  · cases h; rfl
  · obtain ⟨free, hfree, rfl⟩ := Option.map_eq_some_iff.1 h
    exact (tokens_setKey free _).trans (tokens_forgetKey? hfree)

theorem tokens_dropExpired? (h : s.dropExpired? here = some s') : s'.tokens = s.tokens := by
  obtain ⟨-, heq⟩ := Option.ite_none_left_eq_some.1 h
  cases heq
  rfl

theorem tokens_skipGap? {after : Cursor} (h : s.skipGap? here = some (s', after)) :
    s'.tokens = s.tokens := by
  refine Cursor.invariant_of_repeat? (I := fun state _ => state.tokens = s.tokens)
    (P := fun result => result.1.tokens = s.tokens) ?_ ?_ rfl h
  · intro state place state' place' hsame hstep _
    dsimp only at hstep
    generalize Cursor.skipComment _ = after at hstep
    split at hstep
    · cases hstep
      split <;> exact hsame
    · cases hstep
  · intro state place result hsame hstep
    dsimp only at hstep
    generalize Cursor.skipComment _ = after at hstep
    split at hstep
    · cases hstep
    · cases hstep
      exact hsame

theorem marks_endDocument? (h : s.endDocument? = some s') : marks s'.tokens = marks s.tokens := by
  obtain ⟨closed, hclosed, rfl⟩ := Option.map_eq_some_iff.1 h
  exact (congrArg marks (tokens_forgetKey? hclosed)).trans (marks_closeDeeper s (-1))

/-! ## One token -/

/-- A state has one mark more than another at most. -/
def AddsMark (s s' : TokenState) : Prop := marks s'.tokens ≤ marks s.tokens + 1

theorem AddsMark.emit {added : TokenState} (h : marks added.tokens = marks s.tokens) (token : Token) :
    s.AddsMark (added.emit token) :=
  Nat.le_trans marks_cons_le (Nat.le_of_eq (congrArg (· + 1) h))

theorem addsMark_openFlow? (h : s.openFlow? here token = some s') : s.AddsMark s' := by
  obtain ⟨remembering, hkey, rfl⟩ := Option.map_eq_some_iff.1 h
  exact .emit (congrArg marks (tokens_rememberKey? hkey)) token

theorem addsMark_closeFlow? (h : s.closeFlow? token = some s') : s.AddsMark s' := by
  obtain ⟨free, hkey, rfl⟩ := Option.map_eq_some_iff.1 h
  exact .emit (congrArg marks (tokens_forgetKey? hkey)) token

theorem addsMark_blockIndicator? {start : Token} {keyAllowed : Bool} (hstart : start.isMark = false)
    (h : s.blockIndicator? here start token keyAllowed = some s') : s.AddsMark s' := by
  obtain ⟨-, h⟩ := Option.ite_none_left_eq_some.1 h
  obtain ⟨free, hkey, rfl⟩ := Option.map_eq_some_iff.1 h
  exact .emit ((congrArg marks (tokens_forgetKey? hkey)).trans (marks_openBlock _ _ hstart)) token

theorem addsMark_valueIndicator? (h : s.valueIndicator? here = some s') : s.AddsMark s' := by
  unfold valueIndicator? at h
  split at h
  · next key _ =>
    cases h
    refine .emit (congrArg marks (tokens_setKey _ none) |>.trans ?_) .value
    exact (marks_openBlock _ _ rfl).trans (marks_insert key.position rfl)
  · obtain ⟨-, h⟩ := Option.ite_none_left_eq_some.1 h
    cases h
    exact .emit (marks_openBlock _ _ rfl) .value

/-- So does every state that a reading of one token may come to. -/
def Adds (s : TokenState) (next : Option (TokenState × Cursor)) : Prop :=
  ∀ result ∈ next, s.AddsMark result.1

theorem Adds.ite {p : Prop} [Decidable p] {next other : Option (TokenState × Cursor)} (h : s.Adds next)
    (hother : s.Adds other) : s.Adds (if p then next else other) := by
  split
  · exact h
  · exact hother

theorem Adds.map {next : Option TokenState} (h : ∀ one ∈ next, s.AddsMark one) (place : Cursor) :
    s.Adds (next.map fun one => (one, place)) := by
  intro result hresult
  obtain ⟨one, hone, rfl⟩ := Option.map_eq_some_iff.1 hresult
  exact h one hone

theorem adds_directive (s : TokenState) (here : Cursor) :
    s.Adds (do
      let s ← s.endDocument?
      let (token, after) ← here.directive?
      some (s.emit token, after)) := by
  intro result h
  obtain ⟨closed, hclosed, h⟩ := Option.bind_eq_some_iff.1 h
  obtain ⟨⟨token, _⟩, -, h⟩ := Option.bind_eq_some_iff.1 h
  cases h
  exact .emit (marks_endDocument? hclosed) token

theorem adds_content? (s : TokenState) (here : Cursor) (read : Option (Token × Cursor)) :
    s.Adds (s.content? here read) := by
  intro result h
  obtain ⟨remembering, hkey, h⟩ := Option.bind_eq_some_iff.1 h
  obtain ⟨⟨token, _⟩, -, h⟩ := Option.bind_eq_some_iff.1 h
  cases h
  exact .emit (congrArg marks (tokens_rememberKey? hkey)) token

theorem adds_plain? (s : TokenState) (here : Cursor) : s.Adds (s.plain? here) := by
  intro result h
  obtain ⟨remembering, hkey, h⟩ := Option.bind_eq_some_iff.1 h
  obtain ⟨_, -, h⟩ := Option.bind_eq_some_iff.1 h
  cases h
  exact .emit (congrArg marks (tokens_rememberKey? hkey)) _

theorem adds_block? (s : TokenState) (here : Cursor) (style : Style) :
    s.Adds (s.block? here style) := by
  intro result h
  obtain ⟨free, hkey, h⟩ := Option.bind_eq_some_iff.1 h
  obtain ⟨_, -, h⟩ := Option.bind_eq_some_iff.1 h
  cases h
  exact .emit (congrArg marks (tokens_forgetKey? hkey)) _

/-- Whatever the next token is, it adds one mark at most. -/
theorem adds_token? (s : TokenState) (here : Cursor) (c : Char) : s.Adds (s.token? here c) := by
  have hdocument (token : Token) : s.Adds (s.endDocument?.map fun s => (s.emit token, here.skip 3)) := by
    intro result h
    obtain ⟨closed, hclosed, rfl⟩ := Option.map_eq_some_iff.1 h
    exact .emit (marks_endDocument? hclosed) token
  have hcomma : ∀ one ∈ s.forgetKey?.map fun s => { s with keyAllowed := true }.emit .flowEntry,
      s.AddsMark one := by
    intro one hone
    obtain ⟨free, hkey, rfl⟩ := Option.map_eq_some_iff.1 hone
    exact .emit (congrArg marks (tokens_forgetKey? hkey)) .flowEntry
  rw [token?]
  extract_lets
  -- what begins with a mark of its own
  refine .ite (adds_directive s here) (.ite (hdocument _) ?_)
  refine .ite (.map (fun _ => addsMark_openFlow?) _) (.ite (.map (fun _ => addsMark_openFlow?) _) ?_)
  refine .ite (.map (fun _ => addsMark_closeFlow?) _) (.ite (.map (fun _ => addsMark_closeFlow?) _) ?_)
  refine .ite (.map hcomma _) (.ite (.map (fun _ => addsMark_blockIndicator? rfl) _) ?_)
  refine .ite (.map (fun _ => addsMark_blockIndicator? rfl) _) ?_
  refine .ite (.map (fun _ => addsMark_valueIndicator?) _) ?_
  -- what stands for a node or belongs to one
  refine .ite (adds_content? s here _) (.ite (adds_content? s here _) (.ite (adds_content? s here _) ?_))
  refine .ite (adds_block? s here _) (.ite (adds_block? s here _) (.ite (adds_content? s here _) ?_))
  refine .ite (adds_plain? s here) ?_
  rintro _ ⟨⟩

/-! ## Whole texts -/

/-- A step that goes on adds one mark at most. -/
theorem marks_of_more {after : Cursor} (h : s.step? here = some (.more s' after)) :
    marks s'.tokens ≤ marks s.tokens + 1 := by
  obtain ⟨⟨gone, place⟩, hgap, h⟩ := Option.bind_eq_some_iff.1 h
  obtain ⟨current, hcurrent, h⟩ := Option.bind_eq_some_iff.1 h
  dsimp only at h
  split at h
  · obtain ⟨_, -, h⟩ := Option.map_eq_some_iff.1 h
    cases h
  · obtain ⟨one, htoken, h⟩ := Option.map_eq_some_iff.1 h
    cases h
    have hadds := adds_token? _ _ _ _ htoken
    rwa [AddsMark, marks_closeDeeper, tokens_dropExpired? hcurrent, tokens_skipGap? hgap] at hadds

/-- The last step adds none. -/
theorem marks_of_done {tokens : List Token} (h : s.step? here = some (.done tokens)) :
    marks tokens = marks s.tokens := by
  obtain ⟨⟨gone, place⟩, hgap, h⟩ := Option.bind_eq_some_iff.1 h
  obtain ⟨current, hcurrent, h⟩ := Option.bind_eq_some_iff.1 h
  dsimp only at h
  split at h
  · obtain ⟨result, hfinish, h⟩ := Option.map_eq_some_iff.1 h
    cases h
    obtain ⟨free, hkey, rfl⟩ := Option.map_eq_some_iff.1 hfinish
    rw [marks_reverse, tokens_forgetKey? hkey, marks_closeDeeper, marks_closeDeeper,
      tokens_dropExpired? hcurrent, tokens_skipGap? hgap]
  · obtain ⟨one, -, h⟩ := Option.map_eq_some_iff.1 h
    cases h

end TokenState

/-- The tokens of a text have no more marks than the text has characters. -/
theorem marks_of_tokens? {text : String} (h : tokens? text = some tokens) : marks tokens ≤ text.length := by
  obtain ⟨-, hrepeat⟩ := Option.ite_none_right_eq_some.1 h
  refine Cursor.invariant_of_repeat?
    (I := fun state place => marks state.tokens + place.left ≤ text.length)
    (P := fun result => marks result ≤ text.length) ?_ ?_ ?_ hrepeat
  · intro state place state' place' hbound hstep hless
    have hmarks := TokenState.marks_of_more hstep
    omega
  · intro state place result hbound hstep
    have hmarks := TokenState.marks_of_done hstep
    omega
  · simp [String.length_toList]

end ApiModel.Yaml
