import ImportAtlas.Proofs.ReaderGives
import ImportAtlas.Source.Statement

/-!
Readers that succeed, told by the text in front of them.

A place is what the readers here look at: the text that is left and the blocks that are open. A
reader yields from one place to another if it succeeds wherever the first place stands in a
source, with a value that has a property, and stops at the second. Positions are left open.
-/

namespace ImportAtlas.Source

/-- The text that is left, inside blocks of the given indentations. -/
structure Place where
  rest : List Char
  blocks : List ℕ

/-- The state is at the place, outside of formatted strings. -/
structure State.IsAt (st : State) (a : Place) : Prop where
  rest : st.cursor.rest = a.rest
  blocks : st.blocks = a.blocks
  inFormat : st.inFormat = false

namespace Reader

variable {α β : Type} {r : Reader α} {P : α → Prop} {Q : β → Prop} {a b c : Place}
variable {s t : List Char} {bs : List ℕ}

/-- From place `a` the reader succeeds with a value that has the property and stops at `b`. -/
def Yields (r : Reader α) (a : Place) (P : α → Prop) (b : Place) : Prop :=
  ∀ st : State, st.IsAt a → ∃ x st', r st = .ok (x, st') ∧ P x ∧ st'.IsAt b

lemma yields_pure {x : α} (h : P x) : (pure x : Reader α).Yields a P a :=
  fun st hst => ⟨x, st, rfl, h, hst⟩

lemma Yields.bind {f : α → Reader β} (hr : r.Yields a P b)
    (hf : ∀ x, P x → (f x).Yields b Q c) : (r >>= f).Yields a Q c := by
  intro st hst
  obtain ⟨x, st', hx, hP, hst'⟩ := hr st hst
  obtain ⟨y, st'', hy, hQ, hst''⟩ := hf x hP st' hst'
  refine ⟨y, st'', ?_, hQ, hst''⟩
  show (r st >>= fun x => f x.1 x.2) = _
  rw [hx]
  exact hy

/-- A reader whose value is known is followed by the rest of the program at that value. -/
lemma Yields.then {f : α → Reader β} {x : α} (hr : r.Yields a (· = x) b)
    (hf : (f x).Yields b Q c) : (r >>= f).Yields a Q c :=
  hr.bind fun _ hx => hx ▸ hf

lemma Yields.mono {P' : α → Prop} (h : r.Yields a P b) (hP : ∀ x, P x → P' x) :
    r.Yields a P' b := by
  intro st hst
  obtain ⟨x, st', hx, hPx, hst'⟩ := h st hst
  exact ⟨x, st', hx, hP x hPx, hst'⟩

/-- What is known of every value that the reader gives is known of this one. -/
lemma Yields.and_gives {Q : α → Prop} (h : r.Yields a P b) (hgives : r.Gives Q) :
    r.Yields a (fun x => P x ∧ Q x) b := by
  intro st hst
  obtain ⟨x, st', hx, hP, hst'⟩ := h st hst
  exact ⟨x, st', hx, ⟨hP, gives_iff.mp hgives st x st' hx⟩, hst'⟩

/-- A look ahead comes back to where it began. -/
lemma Yields.peek (h : r.Yields a P b) : (peek r).Yields a P a := by
  intro st hst
  obtain ⟨x, st', hx, hP, -⟩ := h st hst
  refine ⟨x, st, ?_, hP, hst⟩
  show (r st >>= fun y => (do set st; return y.1 : Reader α) y.2) = _
  rw [hx]
  rfl

lemma yields_position : position.Yields a (fun _ => True) a :=
  fun st hst => ⟨_, st, rfl, trivial, hst⟩

/-! ### Tests of the text -/

/-- The reader looks at the text that is left and leaves everything as it is. -/
class Looks (r : Reader α) (value : outParam (List Char → α)) : Prop where
  run_eq : ∀ st, r st = .ok (value st.cursor.rest, st)

instance : Looks rest id := ⟨fun _ => rfl⟩
instance : Looks word? wordAt := ⟨fun _ => rfl⟩
instance : Looks symbol? symbolAt := ⟨fun _ => rfl⟩
instance : Looks atString (fun s => (quoteAt s).isSome) := ⟨fun _ => rfl⟩

instance (text : String) : Looks (atWord text) (fun s => decide (wordAt s = some text)) :=
  ⟨fun st => by simp only [← beq_eq_decide]; rfl⟩

instance (text : String) : Looks (atSymbol text) (fun s => decide (symbolAt s = some text)) :=
  ⟨fun st => by simp only [← beq_eq_decide]; rfl⟩

lemma yields_looked {value : List Char → α} [hr : Looks r value] (h : P (value s)) :
    r.Yields ⟨s, bs⟩ P ⟨s, bs⟩ :=
  fun st hst => ⟨_, st, hr.run_eq st, by rwa [hst.rest], hst⟩

/-- What comes behind a look at the text is run at what is seen. -/
lemma yields_look {value : List Char → α} [hr : Looks r value] {f : α → Reader β} :
    (r >>= f).Yields ⟨s, bs⟩ Q b ↔ (f (value s)).Yields ⟨s, bs⟩ Q b := by
  refine forall_congr' fun st => forall_congr' fun hst => ?_
  have hrun : (r >>= f) st = f (value s) st := by
    show (r st >>= fun x => f x.1 x.2) = _
    rw [hr.run_eq st, hst.rest]
    rfl
  rw [hrun]

/-! ### Taking text -/

lemma yields_take {kind : TokenKind} :
    (take kind s.length).Yields ⟨s ++ t, bs⟩ (fun x => ∃ p, x = .token ⟨kind, p, .ofList s⟩)
      ⟨t, bs⟩ := by
  intro st hst
  refine ⟨_, { st with cursor := st.cursor.drop s.length }, rfl, ⟨st.cursor.position, ?_⟩, ?_⟩
  · rw [hst.rest, List.take_left]
  · exact ⟨by rw [Cursor.rest_drop, hst.rest, List.drop_left], hst.blocks, hst.inFormat⟩

lemma yields_keyword {text : String} (h : wordAt (text.toList ++ t) = some text) :
    (keyword text).Yields ⟨text.toList ++ t, bs⟩ (fun x => ∃ p, x = .token ⟨.keyword, p, text⟩)
      ⟨t, bs⟩ := by
  unfold keyword
  simp only [yields_look, h, decide_true, if_true]
  have htake := @yields_take text.toList t bs .keyword
  rwa [String.ofList_toList, String.length_toList] at htake

lemma yields_symbol {text : String} (h : symbolAt (text.toList ++ t) = some text) :
    (symbol text).Yields ⟨text.toList ++ t, bs⟩ (fun x => ∃ p, x = .token ⟨.symbol, p, text⟩)
      ⟨t, bs⟩ := by
  unfold symbol
  simp only [yields_look, h, decide_true, if_true]
  have htake := @yields_take text.toList t bs .symbol
  rwa [String.ofList_toList, String.length_toList] at htake

lemma yields_mark {text : String} {c : Char} (htext : text.toList = [c])
    (h : symbolAt (c :: t) = some text) :
    (symbol text).Yields ⟨c :: t, bs⟩ (fun x => ∃ p, x = .token ⟨.symbol, p, text⟩) ⟨t, bs⟩ := by
  have hsymbol := @yields_symbol t bs text
  rw [htext] at hsymbol
  exact hsymbol h

lemma yields_name (h : wordLength (s ++ t) = s.length) (hs : s ≠ []) :
    name.Yields ⟨s ++ t, bs⟩ (fun x => ∃ p, x = .token ⟨.name, p, .ofList s⟩) ⟨t, bs⟩ := by
  unfold name
  simp only [yields_look, id, h]
  cases s with
  | nil => exact absurd rfl hs
  | cons c s => exact yields_take

/-! ### A gap and a lexeme -/

variable {e : Expect}

lemma Yields.lexeme (h : (next e).Yields a (· = .lexeme) b) : (lexeme e).Yields a (· = ()) b :=
  h.then (yields_pure rfl)

lemma yields_nextName {P : Tree → Prop} (hnext : (next e).Yields a (· = .lexeme) b)
    (hname : name.Yields b P c) : (nextName e).Yields a P c :=
  hnext.lexeme.then hname

lemma yields_nextKeyword {P : Tree → Prop} {text : String}
    (hnext : (next e).Yields a (· = .lexeme) b) (hkeyword : (keyword text).Yields b P c) :
    (nextKeyword text e).Yields a P c :=
  hnext.lexeme.then hkeyword

lemma yields_nextSymbol {P : Tree → Prop} {text : String}
    (hnext : (next e).Yields a (· = .lexeme) b) (hsymbol : (symbol text).Yields b P c) :
    (nextSymbol text e).Yields a P c :=
  hnext.lexeme.then hsymbol

/-! ### Loops -/

lemma yields_iterate_some {step : α → Reader (Option α)} {x : α} {n : ℕ}
    {R : α → Prop} (h : (step x).Yields a (fun next => ∃ y, next = some y ∧ R y) b)
    (hrest : ∀ y, R y → (iterate step n y).Yields b P c) :
    (iterate step (n + 1) x).Yields a P c := by
  refine h.bind ?_
  rintro _ ⟨y, rfl, hy⟩
  exact hrest y hy

/-- A loop ends where its step has nothing to add. -/
lemma yields_iterate_none {step : α → Reader (Option α)} {x : α} {n : ℕ} (hn : 0 < n)
    (h : (step x).Yields a (· = none) b) (hx : P x) : (iterate step n x).Yields a P b := by
  cases n with
  | zero => cases hn
  | succ n => exact h.then (yields_pure hx)

end Reader

end ImportAtlas.Source
