import ImportAtlas.Export.Dot
import ImportAtlas.Proofs.AddedFiles

/-!
What drawing a graph leaves behind in a tree without links.

The source of the drawing is written first and stays, whatever becomes of the layout program. The
document beside it, if there is one, stands at another place. So drawing once more changes nothing
and ends in the same way.
-/

namespace ImportAtlas

namespace FileTree

variable {t t' : FileTree} {here : Location} {program : LayoutProgram} {g : ImportGraph}
variable {path s : String} {result : Except DrawingError String} {ls : List Location} {p : Path}

lemma layOut_cases (h : t.layOut here program path = (t', result)) :
    t' = t ∨ ∃ s, t.writeText here (.ofText (documentPath path)) s = .ok t' := by
  cases program with
  | missing => exact .inl (Prod.mk.inj h).1.symm
  | exits status =>
    cases status with
    | zero => exact .inl (Prod.mk.inj h).1.symm
    | succ n => exact .inl (Prod.mk.inj h).1.symm
  | writesArguments =>
    obtain ⟨htree, -⟩ := Prod.mk.inj h
    cases hw : t.writeText here (.ofText (documentPath path)) _ with
    | error e =>
      rw [hw] at htree
      exact .inl htree.symm
    | ok u =>
      rw [hw] at htree
      obtain rfl : u = t' := htree
      exact .inr ⟨_, hw⟩

lemma layOut_again (ht : t.LinkFree) (h : t.layOut here program path = (t', result)) :
    t'.layOut here program path = (t', result) := by
  cases program with
  | missing =>
    obtain ⟨rfl, rfl⟩ := Prod.mk.inj h
    rfl
  | exits status =>
    cases status with
    | zero =>
      obtain ⟨rfl, rfl⟩ := Prod.mk.inj h
      rfl
    | succ n =>
      obtain ⟨rfl, rfl⟩ := Prod.mk.inj h
      rfl
  | writesArguments =>
    obtain ⟨htree, rfl⟩ := Prod.mk.inj h
    cases hw : t.writeText here (.ofText (documentPath path)) _ with
    | error e =>
      rw [hw] at htree
      obtain rfl := htree
      exact h
    | ok u =>
      rw [hw] at htree
      obtain rfl : u = t' := htree
      -- the document is there already, with the same text
      have hagain := (holds_of_writeText ht hw).writeText_eq_self
        ((puts_of_writeText ht hw).linkFree ht)
      unfold layOut
      simp only [hagain]
      rfl

/-- Drawing fails to write its source and changes nothing, or writes it and lays it out. -/
lemma draw_cases (h : t.draw here program g path = (t', result)) :
    (t' = t ∧ ¬t.Writable here (.ofText path)) ∨
      ∃ u, t.writeText here (.ofText path) g.dot = .ok u ∧
        u.layOut here program path = (t', result) := by
  unfold draw at h
  cases hw : t.writeText here (.ofText path) g.dot with
  | error e =>
    rw [hw] at h
    refine .inl ⟨(Prod.mk.inj h).1.symm, fun hwritable => ?_⟩
    obtain ⟨u, hu⟩ := writable_iff.mp hwritable
    rw [hu] at hw
    cases hw
  | ok u =>
    rw [hw] at h
    exact .inr ⟨u, rfl, h⟩

section

variable (ht : t.LinkFree) (h : t.draw here program g path = (t', result))

include ht h

/-- Only the source and the document are written. -/
lemma draw_adds (hsource : (Path.ofText path).place here ∈ ls)
    (hdocument : (Path.ofText (documentPath path)).place here ∈ ls) : t.Adds t' ls := by
  rcases draw_cases h with ⟨rfl, -⟩ | ⟨u, hu, hlayOut⟩
  · exact .refl _ ls
  · have hputs := puts_of_writeText ht hu
    refine (hputs.adds hsource).trans ?_
    rcases layOut_cases hlayOut with rfl | ⟨s, hs⟩
    · exact .refl _ ls
    · exact (puts_of_writeText (hputs.linkFree ht) hs).adds hdocument

lemma draw_keeps (hp : t.Holds here p s) (hsource : p.place here ≠ (Path.ofText path).place here)
    (hdocument : p.place here ≠ (Path.ofText (documentPath path)).place here) :
    t'.Holds here p s := by
  rcases draw_cases h with ⟨rfl, -⟩ | ⟨u, hu, hlayOut⟩
  · exact hp
  · have hputs := puts_of_writeText ht hu
    have hkept := hp.of_puts ht hputs hsource
    rcases layOut_cases hlayOut with rfl | ⟨s, hs⟩
    · exact hkept
    · exact hkept.of_puts (hputs.linkFree ht) (puts_of_writeText (hputs.linkFree ht) hs) hdocument

variable (hne : (Path.ofText path).place here ≠ (Path.ofText (documentPath path)).place here)

include hne

/-- The source holds the graph, whatever becomes of the layout program. -/
lemma draw_holds (hpath : t.Writable here (.ofText path)) : t'.Holds here (.ofText path) g.dot := by
  rcases draw_cases h with ⟨-, hnot⟩ | ⟨u, hu, hlayOut⟩
  · exact absurd hpath hnot
  · have hholds := holds_of_writeText ht hu
    have hlinkFree := (puts_of_writeText ht hu).linkFree ht
    rcases layOut_cases hlayOut with rfl | ⟨s, hs⟩
    · exact hholds
    · exact hholds.of_puts hlinkFree (puts_of_writeText hlinkFree hs) hne

lemma draw_again : t'.draw here program g path = (t', result) := by
  rcases draw_cases h with ⟨rfl, -⟩ | ⟨u, hu, hlayOut⟩
  · exact h
  · have hholds := draw_holds ht h hne (writable_iff.mpr ⟨u, hu⟩)
    have hlinkFree := (puts_of_writeText ht hu).linkFree ht
    have hlinkFree' : t'.LinkFree := (draw_adds ht h (List.mem_cons_self ..)
      (List.mem_cons_of_mem _ (List.mem_singleton.mpr rfl))).linkFree ht
    unfold draw
    rw [hholds.writeText_eq_self hlinkFree']
    exact layOut_again hlinkFree hlayOut

end

end FileTree

end ImportAtlas
