import HostingAdmin.Proofs.AppFolders

set_option autoImplicit false

namespace HostingAdmin

namespace Node

theorem walk_filled (root other x : Node) (grows : Grows root other) (links : Nat) (here todo at_ : List String)
    (walked : root.walk true links here todo = .ok (.vacant at_)) (filled : other.get? at_ = some x)
    (plain : x.isLink = false) : other.walk true links here todo = .ok (.node at_ x) := by
  have folders := grows_folder root other grows
  have entries_grow := grows_entry root other grows
  fun_induction Node.walk root true links here todo with
  | case3 links here rest entries folder ih =>
      obtain ⟨others, there⟩ := folders here entries folder
      simpa only [walk, there, if_true] using ih walked
  | case5 links here part rest entries folder up long entry last =>
      cases walked
      obtain ⟨others, there⟩ := folders here entries folder
      have found : others.lookup part = some x := by rw [← get_entry other here others part there, filled]
      cases x with
      | link target => cases plain
      | file body modified => simp [walk, there, up, long, found, List.isEmpty_iff.mp last, filled]
      | folder below => simp [walk, there, up, long, found, List.isEmpty_iff.mp last, filled]
  | case7 links here part rest entries folder up long target entry last => simp at last
  | case9 here part rest entries folder up long target entry goesOn links t ih =>
      obtain ⟨others, there⟩ := folders here entries folder
      obtain ⟨m, found, same⟩ := entries_grow here entries others part _ folder there entry
      obtain rfl := kind_link m target same
      simp only [walk, there, up, long, found, goesOn, if_false]
      exact ih walked
  | case10 links here part rest entries folder up long child notLink entry ih =>
      obtain ⟨others, there⟩ := folders here entries folder
      obtain ⟨m, found, same⟩ := entries_grow here entries others part child folder there entry
      have noLink : ∀ target, m = .link target → False := by
        intro target link
        subst link
        exact notLink target (kind_link child target same.symm)
      simp only [walk, there, up, long, found, if_false]
      exact ih walked
  | _ => cases walked

end Node

namespace FileTree

theorem located_leads (t : FileTree) (p : Path) (s : Spot) (located : t.locate true p = .ok s) : t.Leads p s.place :=
  Node.walk_real t.root _ _ _ s ((locate_walk t true p s).mp located).2

theorem write_leads (t u : FileTree) (p : Path) (body : Bytes) (now : Int) (named : p.parts ≠ [])
    (written : t.write p body now = .ok u) :
    ∃ spot, t.Leads p spot ∧ u.current = t.current ∧ t.root.Laid u.root spot (.file body now) := by
  obtain ⟨spot, vacant | ⟨n, there⟩, current, _, laid⟩ := file_written t u p body now named written
  · exact ⟨spot, located_leads t p (.vacant spot) vacant, current, laid⟩
  · exact ⟨spot, located_leads t p (.node spot n) there, current, laid⟩

theorem write_linked (t u : FileTree) (p : Path) (body : Bytes) (now : Int) (named : p.parts ≠ [])
    (written : t.write p body now = .ok u) : t.Linked u := by
  obtain ⟨spot, _, current, laid⟩ := write_leads t u p body now named written
  exact laid_linked t u spot _ current laid

-- A path leads to the file that was written under it, in a tree that only grew.
theorem written_located (t u : FileTree) (p : Path) (body : Bytes) (now : Int) (named : p.parts ≠ [])
    (written : t.write p body now = .ok u) :
    ∃ spot, (t.locate true p = .ok (.vacant spot) ∨ ∃ n, t.locate true p = .ok (.node spot n)) ∧
      t.root.Grows u.root ∧ u.current = t.current ∧ u.locate true p = .ok (.node spot (.file body now)) := by
  obtain ⟨spot, place, current, _, laid⟩ := file_written t u p body now named written
  have grows := Node.laid_grows t.root u.root spot _ laid (.inl rfl)
  have filled := (Node.look_file u.root spot body now).mp (Node.laid_there t.root u.root spot _ laid)
  refine ⟨spot, place, grows, current, ?_⟩
  rcases place with vacant | ⟨n, there⟩
  · obtain ⟨short, walked⟩ := (locate_walk t true p _).mp vacant
    have again := Node.walk_filled t.root u.root _ grows _ _ _ spot walked filled rfl
    exact (locate_walk u true p _).mpr ⟨short, by rw [current]; exact again⟩
  · obtain ⟨m, found, again⟩ := locate_grown t u current grows p spot n there
    rw [filled] at found
    cases found
    exact again

theorem written_read (t u : FileTree) (p : Path) (body : Bytes) (now : Int) (named : p.parts ≠ [])
    (written : t.write p body now = .ok u) : u.read p = .ok body := by
  obtain ⟨spot, _, _, _, located⟩ := written_located t u p body now named written
  exact spot_read u p spot body now located

theorem built_read (t u : FileTree) (p : Path) (body : Bytes) (built : t.Built u) (there : t.read p = .ok body) :
    u.read p = .ok body := by
  obtain ⟨spot, modified, located⟩ := read_spot t p body there
  have found := Node.walk_there t.root true _ _ _ spot _ ((locate_walk t true p _).mp located).2
  have grows : t.root.Grows u.root := Node.look_grows t.root u.root fun at_ n seen => ⟨n, built.kept at_ n seen, rfl⟩
  obtain ⟨m, reached, again⟩ := locate_grown t u built.current grows p spot _ located
  have kept := (Node.look_file u.root spot body modified).mp
    (built.kept spot _ ((Node.look_file t.root spot body modified).mpr found))
  rw [kept] at reached
  cases reached
  exact spot_read u p spot body modified again

-- Two paths that do not lead to one place.
def Apart (t : FileTree) (p q : Path) : Prop := ∀ spot, t.Leads p spot → ¬ t.Leads q spot

theorem apart_linked (t u : FileTree) (linked : t.Linked u) (p q : Path) (apart : t.Apart p q) : u.Apart p q := by
  intro spot first second
  exact apart spot ((leads_linked t u linked p spot).mp first) ((leads_linked t u linked q spot).mp second)

theorem apart_read (t u : FileTree) (p q : Path) (body fresh : Bytes) (now : Int) (named : q.parts ≠ [])
    (apart : t.Apart p q) (there : t.read p = .ok body) (written : t.write q fresh now = .ok u) :
    u.read p = .ok body := by
  apply write_other t u p q body fresh now there named written
  intro spot n m first second
  exact apart spot (located_leads t p _ first) (located_leads t q _ second)

-- The current folder is a folder.
def Standing (t : FileTree) : Prop := ∃ entries, t.root.get? t.current = some (.folder entries)

theorem grown_standing (t u : FileTree) (current : u.current = t.current) (grows : t.root.Grows u.root)
    (standing : t.Standing) : u.Standing := by
  obtain ⟨entries, there⟩ := standing
  rw [Standing, current]
  exact Node.grows_folder t.root u.root grows t.current entries there

theorem built_standing (t u : FileTree) (built : t.Built u) (standing : t.Standing) : u.Standing := by
  have grows : t.root.Grows u.root := Node.look_grows t.root u.root fun at_ n seen => ⟨n, built.kept at_ n seen, rfl⟩
  exact grown_standing t u built.current grows standing

theorem standing_named (t u : FileTree) (p : Path) (body : Bytes) (now : Int) (standing : t.Standing)
    (written : t.write p body now = .ok u) : p.parts ≠ [] := by
  obtain ⟨entries, there⟩ := standing
  by_cases absolute : p.isAbsolute = true
  · exact write_named t u p body now (grounded_above t.root _ t.current there rfl) absolute written
  · intro top
    have walked : t.root.walk true maxLinks t.current p.parts = .ok (.node t.current (.folder entries)) := by
      rw [top, Node.walk, there]
    rw [write] at written
    cases located : t.locate true p with
    | error fault =>
        rw [located] at written
        cases written
    | ok s =>
        obtain ⟨_, reached⟩ := (locate_walk t true p s).mp located
        rw [if_neg absolute, walked] at reached
        cases reached
        rw [located] at written
        cases written

theorem written_standing (t u : FileTree) (p : Path) (body : Bytes) (now : Int) (standing : t.Standing)
    (written : t.write p body now = .ok u) : t.Linked u ∧ u.Standing := by
  have named := standing_named t u p body now standing written
  obtain ⟨spot, _, current, laid⟩ := write_leads t u p body now named written
  have grows := Node.laid_grows t.root u.root spot _ laid (.inl rfl)
  exact ⟨laid_linked t u spot _ current laid, grown_standing t u current grows standing⟩

end FileTree

end HostingAdmin
