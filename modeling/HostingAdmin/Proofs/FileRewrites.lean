import HostingAdmin.Proofs.TreeWalks

set_option autoImplicit false

namespace HostingAdmin

namespace FileTree

-- Nothing has changed but what is in files.
structure Stable (t u : FileTree) : Prop where
  current : u.current = t.current
  grows : t.root.Grows u.root
  shrinks : u.root.Grows t.root

theorem stable_stay (t : FileTree) : t.Stable t :=
  ⟨rfl, fun _ n there => ⟨n, there, rfl⟩, fun _ n there => ⟨n, there, rfl⟩⟩

theorem stable_chain (t u v : FileTree) (first : t.Stable u) (second : u.Stable v) : t.Stable v :=
  ⟨second.current.trans first.current, Node.grows_chain _ _ _ first.grows second.grows,
    Node.grows_chain _ _ _ second.shrinks first.shrinks⟩

theorem utf8_append (s t : String) : Text.utf8 (s ++ t) = Text.utf8 s ++ Text.utf8 t := by
  simp [Text.utf8]

theorem parent_text (p : Path) (named : p.parts ≠ []) (below : ¬ (p.slashes = 0 ∧ p.parent.parts = [])) :
    ∃ rest, p.toString = p.parent.toString ++ rest := by
  obtain ⟨slashes, parts⟩ := p
  obtain ⟨above, last, rfl⟩ := (List.eq_nil_or_concat parts).resolve_left named
  simp only [Path.parent, List.concat_eq_append, List.dropLast_concat] at below ⊢
  have whole : ¬ (slashes = 0 ∧ (above ++ [last]).isEmpty = true) := by simp
  have before : ¬ (slashes = 0 ∧ above.isEmpty = true) := by simpa using below
  simp only [Path.toString, if_neg whole, if_neg before]
  by_cases top : above = []
  · subst top
    refine ⟨last, ?_⟩
    rw [List.nil_append, String.intercalate_singleton, String.intercalate_nil, String.append_empty]
  · refine ⟨"/" ++ last, ?_⟩
    rw [String.intercalate_append_of_ne_nil top (by simp), String.intercalate_singleton]
    simp only [String.append_assoc]

theorem parent_size (p : Path) (named : p.parts ≠ []) (fits : ¬ maxPathSize < (Text.utf8 p.toString).length) :
    ¬ maxPathSize < (Text.utf8 p.parent.toString).length := by
  by_cases top : p.slashes = 0 ∧ p.parent.parts = []
  · have here : p.parent.toString = "." := by
      rw [Path.toString, if_pos ⟨top.1, by rw [top.2]; rfl⟩]
    rw [here]
    decide
  · obtain ⟨rest, whole⟩ := parent_text p named top
    rw [whole, utf8_append, List.length_append] at fits
    omega

theorem locate_walk (t : FileTree) (follow : Bool) (p : Path) (s : Spot) :
    t.locate follow p = .ok s ↔ ¬ maxPathSize < (Text.utf8 p.toString).length ∧
      t.root.walk follow maxLinks (if p.isAbsolute then [] else t.current) p.parts = .ok s := by
  rw [locate]
  by_cases long : maxPathSize < (Text.utf8 p.toString).length
  · simp [long]
  · rw [if_neg long]
    cases t.root.walk follow maxLinks (if p.isAbsolute then [] else t.current) p.parts with
    | error problem =>
        constructor
        · intro located
          cases located
        · rintro ⟨_, walked⟩
          cases walked
    | ok found =>
        constructor
        · intro located
          cases located
          exact ⟨long, rfl⟩
        · rintro ⟨_, walked⟩
          cases walked
          rfl

theorem read_spot (t : FileTree) (p : Path) (body : Bytes) (there : t.read p = .ok body) :
    ∃ spot modified, t.locate true p = .ok (.node spot (.file body modified)) := by
  unfold read node at there
  cases located : t.locate true p with
  | error fault =>
      rw [located] at there
      cases there
  | ok s =>
      rw [located] at there
      cases s with
      | vacant at_ => cases there
      | node at_ n =>
          cases n with
          | file body modified =>
              cases there
              exact ⟨at_, modified, rfl⟩
          | _ => cases there

theorem spot_read (t : FileTree) (p : Path) (spot : List String) (body : Bytes) (modified : Int)
    (located : t.locate true p = .ok (.node spot (.file body modified))) : t.read p = .ok body := by
  rw [read, node, located]
  rfl

-- The folder of a name that a path leads to is there already.
theorem folder_above (t : FileTree) (p : Path) (s : Spot) (named : p.parts ≠ [])
    (located : t.locate true p = .ok s) : t.makeFolders p.parent = .ok t := by
  obtain ⟨fits, walked⟩ := (locate_walk t true p _).mp located
  have short := parent_size p named fits
  rw [← List.dropLast_concat_getLast named] at walked
  obtain ⟨_, n, reached, _⟩ := Node.walk_before t.root false _ _ p.parent.parts _ [] _ walked
  obtain ⟨_, m, followed, opens⟩ := Node.walk_before t.root true _ _ p.parent.parts _ [] _ walked
  obtain ⟨entries, rfl⟩ := opens rfl
  have here := (locate_walk t false p.parent _).mpr ⟨short, reached⟩
  have folder := (locate_walk t true p.parent _).mpr ⟨short, followed⟩
  have taken : t.makeFolder p.parent = .error ⟨.exists, p.parent.toString⟩ := by
    rw [makeFolder, here]
    rfl
  have settled : t.isFolder p.parent = true := by
    rw [isFolder, node, folder]
    rfl
  rw [makeFolders, taken]
  simp [settled]

theorem locate_grown (t u : FileTree) (current : u.current = t.current) (grows : t.root.Grows u.root) (p : Path)
    (spot : List String) (n : Node) (located : t.locate true p = .ok (.node spot n)) :
    ∃ m, u.root.get? spot = some m ∧ u.locate true p = .ok (.node spot m) := by
  obtain ⟨fits, walked⟩ := (locate_walk t true p _).mp located
  obtain ⟨m, found, again⟩ := Node.walk_grown t.root u.root grows true _ _ _ spot n walked
  exact ⟨m, found, (locate_walk u true p _).mpr ⟨fits, by rw [current]; exact again⟩⟩

theorem write_read (t : FileTree) (p : Path) (body fresh : Bytes) (now : Int) (there : t.read p = .ok body) :
    ∃ u, t.write p fresh now = .ok u ∧ u.read p = .ok fresh ∧ t.Stable u := by
  obtain ⟨spot, modified, located⟩ := read_spot t p body there
  have found := Node.walk_there t.root true _ _ _ spot _ ((locate_walk t true p _).mp located).2
  have grows : t.root.Grows (t.root.put spot (.file fresh now)) := by
    apply Node.put_grows t.root spot fresh now
    intro n same
    rw [found] at same
    cases same
    rfl
  let u : FileTree := { t with root := t.root.put spot (.file fresh now) }
  obtain ⟨m, written, again⟩ := locate_grown t u rfl grows p spot _ located
  rw [Node.put_get t.root spot _ _ found] at written
  cases written
  refine ⟨u, ?_, spot_read u p spot fresh now again, rfl, grows, Node.put_shrinks t.root spot _ fresh now found rfl⟩
  rw [write, located]
  rfl

theorem write_spot (t u : FileTree) (q : Path) (fresh : Bytes) (now : Int) (named : q.parts ≠ [])
    (written : t.write q fresh now = .ok u) : ∃ at_, u = { t with root := t.root.put at_ (.file fresh now) } ∧
      t.root.Free at_ ∧ ((∃ n, t.locate true q = .ok (.node at_ n)) ∨ t.root.get? at_ = none) := by
  rw [write] at written
  cases located : t.locate true q with
  | error fault =>
      rw [located] at written
      cases written
  | ok s =>
      obtain ⟨_, walked⟩ := (locate_walk t true q s).mp located
      rw [located] at written
      cases s with
      | vacant at_ =>
          cases written
          have empty := Node.walk_vacant t.root true _ _ _ at_ walked
          refine ⟨at_, rfl, ?_, .inr empty⟩
          intro n found
          rw [empty] at found
          cases found
      | node at_ n =>
          have found := Node.walk_there t.root true _ _ _ at_ n walked
          have resolved := Node.walk_named t.root _ _ _ at_ n named walked
          cases n with
          | folder entries => cases written
          | link target => cases resolved
          | file body modified =>
              cases written
              refine ⟨at_, rfl, ?_, .inl ⟨_, rfl⟩⟩
              intro n same
              rw [found] at same
              cases same
              rfl

-- Writing a file leaves every other file as it was.
theorem write_other (t u : FileTree) (p q : Path) (body fresh : Bytes) (now : Int) (there : t.read p = .ok body)
    (named : q.parts ≠ []) (written : t.write q fresh now = .ok u)
    (other : ∀ spot n m, t.locate true p = .ok (.node spot n) → t.locate true q ≠ .ok (.node spot m)) :
    u.read p = .ok body := by
  obtain ⟨spot, modified, located⟩ := read_spot t p body there
  have found := Node.walk_there t.root true _ _ _ spot _ ((locate_walk t true p _).mp located).2
  obtain ⟨at_, rfl, free, place⟩ := write_spot t u q fresh now named written
  have apart : spot ≠ at_ := by
    rintro rfl
    rcases place with ⟨m, same⟩ | empty
    · exact other spot _ m located same
    · rw [empty] at found
      cases found
  obtain ⟨m, kept, again⟩ := locate_grown t { t with root := t.root.put at_ (.file fresh now) } rfl
    (Node.put_grows t.root at_ fresh now free) p spot _ located
  obtain ⟨m', kept', _, same⟩ := Node.put_keeps t.root at_ fresh now free spot _ found
  obtain rfl := same apart rfl
  rw [kept'] at kept
  cases kept
  exact spot_read _ p spot body modified again

end FileTree

end HostingAdmin
