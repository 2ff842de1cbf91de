import ImportAtlas.ImportStatement
import ImportAtlas.Proofs.ReaderYields

/-!
What is read does not depend on where it stands.

A tree is bare if its places are left out, and the text of the dots of a relative import. Readers
that succeed on the same text, wherever it stands, read trees that are the same if they are bare.
How many rounds their loops may take does not matter either, as long as both succeed.
-/

namespace ImportAtlas.Source

open Reader

/-! ### Bare trees -/

/-- The token without its place; the dots of a relative import are left out. -/
def Token.bare (t : Token) : Token := ⟨t.kind, .start, if t.kind = .dots then "" else t.text⟩

mutual

def Tree.bare : Tree → Tree
  | .token t => .token t.bare
  | .node k _ cs => .node k .start (Tree.bareAll cs)

def Tree.bareAll : List Tree → List Tree
  | [] => []
  | t :: ts => t.bare :: Tree.bareAll ts

end

namespace Tree

lemma bareAll_eq_map (ts : List Tree) : bareAll ts = ts.map bare := by
  induction ts with
  | nil => rfl
  | cons t ts ih => rw [bareAll, ih, List.map_cons]

@[simp] lemma bare_token (t : Token) : (token t).bare = .token t.bare := by rw [bare]

@[simp]
lemma bare_node (k : NodeKind) (p : Position) (cs : List Tree) :
    (node k p cs).bare = .node k .start (cs.map bare) := by
  rw [bare, bareAll_eq_map]

@[simp]
lemma children_bare (t : Tree) : t.bare.children = t.children.map bare := by
  cases t <;> simp [children]

@[simp]
lemma name?_bare (t : Tree) : t.bare.name? = t.name? := by
  cases t with
  | node k p cs => simp [name?]
  | token t =>
    obtain ⟨k, p, text⟩ := t
    simp only [bare_token, name?, Token.bare]
    by_cases h : k = .name <;> simp [h]

@[simp]
lemma hasKind_bare (t : Tree) (k : NodeKind) : t.bare.hasKind k = t.hasKind k := by
  cases t <;> simp [hasKind, kind?]

end Tree

end Source

namespace ImportStatement

open Source

@[simp]
lemma dottedPath_bare (t : Tree) : dottedPath t.bare = dottedPath t := by
  simp [dottedPath, List.filterMap_map]

@[simp]
lemma importedPath?_bare (t : Tree) : importedPath? t.bare = importedPath? t := by
  cases t with
  | token t => rfl
  | node k p cs =>
    by_cases hname : k = .dottedName
    · subst hname
      exact congrArg some (dottedPath_bare (.node .dottedName p cs))
    · by_cases halias : k = .aliasedName
      · subst halias
        cases cs with
        | nil => rfl
        | cons t ts => exact congrArg some (dottedPath_bare t)
      · have hother : ∀ p cs, importedPath? (.node k p cs) = none := by
          intro p cs
          unfold importedPath?
          split <;> simp_all
        rw [Tree.bare_node, hother, hother]

lemma importedNames_map_bare (ts : List Tree) :
    importedNames (ts.map Tree.bare) = importedNames ts := by
  simp [importedNames, List.filterMap_map]

end ImportStatement

namespace Source

open Reader

/-! ### Bare states -/

def Cursor.bare (c : Cursor) : Cursor := ⟨c.rest, .start⟩

def State.bare (st : State) : State := { st with cursor := st.cursor.bare }

def Gap.bare : Gap → Gap
  | .mark m c => .mark m c.bare
  | .lexeme c => .lexeme c.bare
  | .hidden c => .hidden c.bare

lemma Cursor.bare_eq_iff {c c' : Cursor} : c.bare = c'.bare ↔ c.rest = c'.rest := by
  simp [bare]

lemma State.bare_eq_iff {st st' : State} :
    st.bare = st'.bare ↔ st.cursor.rest = st'.cursor.rest ∧ st.blocks = st'.blocks ∧
      st.inFormat = st'.inFormat := by
  cases st
  cases st'
  simp [bare, Cursor.bare_eq_iff]

lemma bare_afterSpace {c c' : Cursor} (h : c.rest = c'.rest) :
    (afterSpace c).bare = (afterSpace c').bare := by
  have hspace : (c.dropWhile isSpace).rest = (c'.dropWhile isSpace).rest := by
    rw [Cursor.rest_dropWhile, Cursor.rest_dropWhile, h]
  simp only [afterSpace, h, hspace]
  split <;> simp [Gap.bare, Cursor.bare_eq_iff, hspace]

/-- A gap is read the same wherever its text stands. -/
lemma bare_gap {e : Expect} {blocks : List ℕ} {inFormat : Bool} {c c' : Cursor}
    (h : c.rest = c'.rest) :
    (gap e blocks inFormat c).bare = (gap e blocks inFormat c').bare := by
  -- the gap goes on behind each comment; what it sees there is the text alone
  fun_induction gap e blocks inFormat c generalizing c' with
  | case1 c m hm =>
    rw [gap, ← h, hm]
    exact congrArg (Gap.mark m) (Cursor.bare_eq_iff.mpr h)
  | case2 c hm d =>
    rename_i hpass
    have hd : d.rest = (c'.dropWhile isSpace).rest := by
      rw [Cursor.rest_dropWhile, Cursor.rest_dropWhile, h]
    rw [gap, ← h, hm]
    simp only [← hd, hpass, if_true]
    exact bare_afterSpace h
  | case3 c hm d hpass =>
    rename_i ih
    have hd : d.rest = (c'.dropWhile isSpace).rest := by
      rw [Cursor.rest_dropWhile, Cursor.rest_dropWhile, h]
    have hdrop : (d.drop (passLength d.rest)).rest =
        ((c'.dropWhile isSpace).drop (passLength d.rest)).rest := by
      rw [Cursor.rest_drop, Cursor.rest_drop, hd]
    rw [ih hdrop, gap.eq_def e blocks inFormat c', ← h, hm]
    simp only [← hd, hpass, if_false]

/-! ### Readers that agree -/

namespace Reader

variable {α β γ δ : Type} {view : α → β} {view' : γ → δ} {r r' : Reader α}

/-- Where both readers succeed on the same text, they give the same up to the view and leave the
same text. -/
def AgreeOn (view : α → β) (r r' : Reader α) : Prop :=
  ∀ ⦃st st' a a' next next'⦄, st.bare = st'.bare → r st = .ok (a, next) →
    r' st' = .ok (a', next') → view a = view a' ∧ next.bare = next'.bare

lemma agreeOn_pure {a a' : α} (h : view a = view a') : AgreeOn view (pure a) (pure a') := by
  rintro st st' _ _ _ _ hst ⟨⟩ ⟨⟩
  exact ⟨h, hst⟩

lemma agreeOn_stop : AgreeOn view (stop : Reader α) r' := by
  rintro st st' _ _ _ _ hst ⟨⟩

lemma AgreeOn.bind {f f' : α → Reader γ} (h : AgreeOn view r r')
    (hf : ∀ a a', view a = view a' → AgreeOn view' (f a) (f' a')) :
    AgreeOn view' (r >>= f) (r' >>= f') := by
  intro st st' b b' next next' hst hrun hrun'
  obtain ⟨a, mid, ha, hrun⟩ := run_bind_eq_ok_iff.mp hrun
  obtain ⟨a', mid', ha', hrun'⟩ := run_bind_eq_ok_iff.mp hrun'
  obtain ⟨haa, hmid⟩ := h hst ha ha'
  exact hf a a' haa hmid hrun hrun'

lemma agreeOn_look {value : List Char → α} {look : Reader α} [hlook : Looks look value]
    {f f' : α → Reader γ} (hf : ∀ a, AgreeOn view' (f a) (f' a)) :
    AgreeOn view' (look >>= f) (look >>= f') := by
  intro st st' b b' next next' hst hrun hrun'
  obtain ⟨a, mid, ha, hrun⟩ := run_bind_eq_ok_iff.mp hrun
  obtain ⟨a', mid', ha', hrun'⟩ := run_bind_eq_ok_iff.mp hrun'
  rw [hlook.run_eq] at ha ha'
  cases ha
  cases ha'
  rw [← (State.bare_eq_iff.mp hst).1] at hrun'
  exact hf _ hst hrun hrun'

/-- Loops agree if their steps do, even if one of them may take more rounds. -/
lemma agreeOn_iterate {step step' : α → Reader (Option α)} {n n' : ℕ} {a a' : α}
    (hstep : ∀ a a', view a = view a' → AgreeOn (Option.map view) (step a) (step' a'))
    (h : view a = view a') : AgreeOn view (iterate step n a) (iterate step' n' a') := by
  induction n generalizing n' a a' with
  | zero => exact agreeOn_stop
  | succ n ih =>
    cases n' with
    | zero =>
      -- the first loop goes on, but the second one may not: it fails
      rintro st st' _ _ _ _ hst - ⟨⟩
    | succ n' =>
      refine (hstep a a' h).bind fun next next' hnext => ?_
      cases next with
      | none =>
        obtain rfl : next' = none := by simpa using hnext.symm
        exact agreeOn_pure h
      | some b =>
        obtain ⟨b', rfl, hb⟩ : ∃ b', next' = some b' ∧ view b = view b' := by
          cases next' <;> simp_all
        exact ih hb

lemma agreeOn_next (e : Expect) : AgreeOn id (next e) (next e) := by
  intro st st' a a' after after' hst h h'
  obtain ⟨hrest, hblocks, hformat⟩ := State.bare_eq_iff.mp hst
  have hgap := @bare_gap e st.blocks st.inFormat _ _ hrest
  unfold next at h h'
  rw [← hblocks, ← hformat] at h'
  -- both gaps have the same outcome up to its place, so only equal cases are left
  rcases hc : gap e st.blocks st.inFormat st.cursor with ⟨m, c⟩ | c | c <;>
    rcases hc' : gap e st.blocks st.inFormat st'.cursor with ⟨m', c'⟩ | c' | c' <;>
    simp only [hc, hc', Gap.bare, reduceCtorEq, Gap.mark.injEq, Gap.lexeme.injEq,
      Cursor.bare_eq_iff] at h h' hgap
  · obtain ⟨rfl, hleft⟩ := hgap
    cases m with
    | dedent =>
      cases hdedent : e.dedent <;> simp only [hdedent, reduceIte, reduceCtorEq] at h h'
      cases h
      cases h'
      exact ⟨rfl, State.bare_eq_iff.mpr ⟨hleft, rfl, rfl⟩⟩
    | newline | indent =>
      cases h
      cases h'
      exact ⟨rfl, State.bare_eq_iff.mpr ⟨hleft, rfl, rfl⟩⟩
  · cases h
    cases h'
    exact ⟨rfl, State.bare_eq_iff.mpr ⟨hgap, rfl, rfl⟩⟩

lemma agreeOn_lexeme (e : Expect) : AgreeOn id (lexeme e) (lexeme e) := by
  refine (agreeOn_next e).bind ?_
  rintro a _ rfl
  cases a with
  | mark m => exact agreeOn_stop
  | lexeme => exact agreeOn_pure rfl

lemma agreeOn_take (kind : TokenKind) (n : ℕ) : AgreeOn Tree.bare (take kind n) (take kind n) := by
  rintro st st' _ _ _ _ hst ⟨⟩ ⟨⟩
  obtain ⟨hrest, hblocks, hformat⟩ := State.bare_eq_iff.mp hst
  refine ⟨?_, State.bare_eq_iff.mpr ⟨?_, hblocks, hformat⟩⟩
  · simp [Token.bare, hrest]
  · simp [hrest]

lemma agreeOn_symbol (text : String) : AgreeOn Tree.bare (symbol text) (symbol text) := by
  refine agreeOn_look fun found => ?_
  cases found with
  | false => exact agreeOn_stop
  | true => exact agreeOn_take ..

lemma agreeOn_keyword (text : String) : AgreeOn Tree.bare (keyword text) (keyword text) := by
  refine agreeOn_look fun found => ?_
  cases found with
  | false => exact agreeOn_stop
  | true => exact agreeOn_take ..

lemma agreeOn_name : AgreeOn Tree.bare name name := by
  refine agreeOn_look fun text => ?_
  cases wordLength text with
  | zero => exact agreeOn_stop
  | succ n => exact agreeOn_take ..

lemma agreeOn_nextName (e : Expect) : AgreeOn Tree.bare (nextName e) (nextName e) :=
  (agreeOn_lexeme e).bind fun _ _ _ => agreeOn_name

lemma agreeOn_nextKeyword (text : String) (e : Expect) :
    AgreeOn Tree.bare (nextKeyword text e) (nextKeyword text e) :=
  (agreeOn_lexeme e).bind fun _ _ _ => agreeOn_keyword text

lemma agreeOn_nextSymbol (text : String) (e : Expect) :
    AgreeOn Tree.bare (nextSymbol text e) (nextSymbol text e) :=
  (agreeOn_lexeme e).bind fun _ _ _ => agreeOn_symbol text

end Reader

/-! ### Readers of imports -/

section Imports

abbrev bareList : List Tree → List Tree := List.map Tree.bare

variable {nested nested' : Nested} {e : Expect} {done done' : List Tree}

lemma agreeOn_dottedStep (h : bareList done = bareList done') :
    AgreeOn (Option.map bareList) (CasePattern.dottedStep e done)
      (CasePattern.dottedStep e done') := by
  refine (agreeOn_next e).bind ?_
  rintro a _ rfl
  cases a with
  | mark m => exact agreeOn_pure rfl
  | lexeme =>
    refine agreeOn_look fun dotted => ?_
    cases dotted with
    | false => exact agreeOn_pure rfl
    | true =>
      refine (agreeOn_symbol ".").bind fun dot dot' hdot => ?_
      refine (agreeOn_nextName {}).bind fun w w' hw => ?_
      exact agreeOn_pure (by simp [hw, hdot, h])

namespace Statement

lemma agreeOn_dottedName : AgreeOn Tree.bare (dottedName nested e) (dottedName nested' e) := by
  refine agreeOn_name.bind fun first first' hfirst => ?_
  refine (agreeOn_iterate (fun _ _ => @agreeOn_dottedStep e _ _) ?_).bind
    fun path path' hpath => ?_
  · simp [hfirst]
  · exact agreeOn_pure (by simpa using hpath)

lemma agreeOn_importedName :
    AgreeOn Tree.bare (importedName nested e) (importedName nested' e) := by
  refine agreeOn_dottedName.bind fun target target' htarget => ?_
  refine (agreeOn_next e).bind ?_
  rintro a _ rfl
  cases a with
  | mark m => exact agreeOn_pure htarget
  | lexeme =>
    refine agreeOn_look fun aliased => ?_
    cases aliased with
    | false => exact agreeOn_pure htarget
    | true =>
      refine (agreeOn_keyword "as").bind fun word word' hword => ?_
      refine (agreeOn_nextName {}).bind fun w w' hw => ?_
      exact agreeOn_pure (by simp [htarget, hword, hw])

lemma agreeOn_importedStep (h : bareList done = bareList done') :
    AgreeOn (Option.map bareList) (importedStep nested e done) (importedStep nested' e done') := by
  refine (agreeOn_next e).bind ?_
  rintro a _ rfl
  cases a with
  | mark m => exact agreeOn_pure rfl
  | lexeme =>
    refine agreeOn_look fun separated => ?_
    cases separated with
    | false => exact agreeOn_pure rfl
    | true =>
      refine (agreeOn_symbol ",").bind fun comma comma' hcomma => ?_
      refine (agreeOn_next e).bind ?_
      rintro b _ rfl
      cases b with
      | mark m => exact agreeOn_pure (by simp [hcomma, h])
      | lexeme =>
        refine agreeOn_look fun again => ?_
        cases again with
        -- two commas in a row are no list
        | true => rintro st st' _ _ _ _ - ⟨⟩
        | false =>
          refine agreeOn_look fun word => ?_
          cases word with
          | none => exact agreeOn_pure (by simp [hcomma, h])
          | some text =>
            refine agreeOn_importedName.bind fun t t' ht => ?_
            exact agreeOn_pure (by simp [ht, hcomma, h])

lemma agreeOn_importedNames :
    AgreeOn bareList (importedNames nested e) (importedNames nested' e) := by
  refine (agreeOn_lexeme _).bind fun _ _ _ => ?_
  refine agreeOn_importedName.bind fun first first' hfirst => ?_
  refine (agreeOn_iterate (fun _ _ => @agreeOn_importedStep nested nested' e _ _) ?_).bind
    fun names names' hnames => ?_
  · simp [hfirst]
  · exact agreeOn_pure (by simpa using hnames)

lemma agreeOn_importedList : AgreeOn bareList (importedList nested) (importedList nested') := by
  refine (agreeOn_lexeme _).bind fun _ _ _ => ?_
  refine agreeOn_look fun bracketed => ?_
  cases bracketed with
  | false => exact agreeOn_importedNames
  | true =>
    refine (agreeOn_symbol "(").bind fun first first' hfirst => ?_
    refine agreeOn_importedNames.bind fun names names' hnames => ?_
    refine (agreeOn_nextSymbol ")" _).bind fun last last' hlast => ?_
    exact agreeOn_pure (by simpa [hfirst, hlast] using hnames)

end Statement

end Imports

end ImportAtlas.Source
