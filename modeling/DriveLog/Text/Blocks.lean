/-! Splitting at marks. Blocks that begin with a mark and hold no other one can be told
apart however many of them stand in a row: a row is split in one way only. -/

namespace DriveLog.Text

variable {α : Type} {mark : α → Bool} {front front' back back' : List α}
  {blocks blocks' : List (List α)}

/-- Two texts that run on alike are alike, if what comes behind each of them begins with a
mark and neither holds one. -/
theorem append_inj_of_mark (hfront : ∀ a ∈ front, mark a = false)
    (hfront' : ∀ a ∈ front', mark a = false) (hback : ∀ a ∈ back.head?, mark a = true)
    (hback' : ∀ a ∈ back'.head?, mark a = true) (h : front ++ back = front' ++ back') :
    front = front' ∧ back = back' := by
  have hspan : ∀ {front back : List α}, (∀ a ∈ front, mark a = false) →
      (∀ a ∈ back.head?, mark a = true) →
      (front ++ back).takeWhile (fun a => !mark a) = front := by
    intro front back hfront hback
    rw [List.takeWhile_append_of_pos fun a ha => by simp [hfront a ha]]
    cases back with
    | nil => simp
    | cons b back => simp [hback b rfl]
  have hwhile := congrArg (List.takeWhile fun a => !mark a) h
  rw [hspan hfront hback, hspan hfront' hback'] at hwhile
  subst hwhile
  exact ⟨rfl, List.append_cancel_left h⟩

/-- A mark and what follows it up to the next mark. -/
def IsBlock (mark : α → Bool) (block : List α) : Prop :=
  ∃ head body, block = head :: body ∧ mark head = true ∧ ∀ a ∈ body, mark a = false

theorem mark_head?_flatten (h : ∀ b ∈ blocks, IsBlock mark b) :
    ∀ a ∈ blocks.flatten.head?, mark a = true := by
  cases blocks with
  | nil =>
    intro a ha
    cases ha
  | cons block rest =>
    obtain ⟨head, body, rfl, hhead, _⟩ := h block List.mem_cons_self
    intro a ha
    cases ha
    exact hhead

theorem eq_of_flatten_eq (h : ∀ b ∈ blocks, IsBlock mark b) (h' : ∀ b ∈ blocks', IsBlock mark b)
    (heq : blocks.flatten = blocks'.flatten) : blocks = blocks' := by
  induction blocks generalizing blocks' with
  | nil =>
    cases blocks' with
    | nil => rfl
    | cons block' rest' =>
      obtain ⟨head, body, rfl, _⟩ := h' block' List.mem_cons_self
      cases heq
  | cons block rest ih =>
    obtain ⟨head, body, rfl, _, hbody⟩ := h block List.mem_cons_self
    have hrest : ∀ b ∈ rest, IsBlock mark b := fun b hb => h b (List.mem_cons_of_mem _ hb)
    cases blocks' with
    | nil => cases heq
    | cons block' rest' =>
      obtain ⟨head', body', rfl, _, hbody'⟩ := h' block' List.mem_cons_self
      have hrest' : ∀ b ∈ rest', IsBlock mark b := fun b hb => h' b (List.mem_cons_of_mem _ hb)
      rw [List.flatten_cons, List.flatten_cons, List.cons_append, List.cons_append] at heq
      obtain ⟨rfl, htail⟩ := List.cons.inj heq
      obtain ⟨rfl, hflatten⟩ := append_inj_of_mark hbody hbody' (mark_head?_flatten hrest)
        (mark_head?_flatten hrest') htail
      rw [ih hrest hrest' hflatten]

end DriveLog.Text
