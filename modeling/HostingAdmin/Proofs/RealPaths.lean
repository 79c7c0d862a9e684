import HostingAdmin.Proofs.TreeGrowth

set_option autoImplicit false

namespace HostingAdmin

def Spot.place : Spot → List String
  | .node at_ _ => at_
  | .vacant at_ => at_

namespace Node

-- Names with no link and no way up among them.
structure Plain (root : Node) (parts : List String) : Prop where
  down : ".." ∉ parts
  straight : ∀ before, before <+: parts → before ≠ [] → ∀ target, root.look before ≠ some (.link target)

theorem plain_root (root : Node) : root.Plain [] where
  down := List.not_mem_nil
  straight _ top named := (named (List.prefix_nil.mp top)).elim

theorem plain_above (root : Node) (above parts : List String) (within : above <+: parts) (plain : root.Plain parts) :
    root.Plain above where
  down up := plain.down (within.subset up)
  straight before shorter := plain.straight before (shorter.trans within)

theorem plain_below (root : Node) (parts : List String) (name : String) (plain : root.Plain parts) (down : name ≠ "..")
    (straight : ∀ target, root.look (parts ++ [name]) ≠ some (.link target)) : root.Plain (parts ++ [name]) where
  down up := by
    rcases List.mem_append.mp up with before | last
    · exact plain.down before
    · exact down (List.mem_singleton.mp last).symm
  straight before within named target := by
    rcases List.prefix_concat_iff.mp within with whole | above
    · rw [whole]
      exact straight target
    · exact plain.straight before above named target

theorem plain_onward (root : Node) (parts names : List String) (plain : root.Plain parts) (down : ".." ∉ names)
    (straight : ∀ more target, root.look (parts ++ more) ≠ some (.link target)) : root.Plain (parts ++ names) where
  down up := by
    rcases List.mem_append.mp up with before | after
    · exact plain.down before
    · exact down after
  straight before within named target := by
    rcases List.prefix_or_prefix_of_prefix within (List.prefix_append parts names) with above | below
    · exact plain.straight before above named target
    · obtain ⟨more, rfl⟩ := below
      exact straight more target

theorem plain_same (root other : Node) (parts : List String)
    (same : ∀ at_ target, other.look at_ = some (.link target) → root.look at_ = some (.link target))
    (plain : root.Plain parts) : other.Plain parts where
  down := plain.down
  straight before within named target link := plain.straight before within named target (same before target link)

theorem walk_place (root : Node) (follow : Bool) (links : Nat) (here todo : List String) (s : Spot)
    (plain : root.Plain (here ++ todo)) (walked : root.walk follow links here todo = .ok s) :
    s.place = here ++ todo := by
  fun_induction Node.walk root follow links here todo with
  | case1 links here child found =>
      cases walked
      simp [Spot.place]
  | case3 links here rest entries folder ih => exact (plain.down (by simp)).elim
  | case5 links here part rest entries folder up long entry last =>
      cases walked
      rw [List.isEmpty_iff.mp last, Spot.place]
  | case7 links here part rest entries folder up long target entry last =>
      cases walked
      simp only [Bool.and_eq_true, List.isEmpty_iff] at last
      rw [last.1, Spot.place]
  | case9 here part rest entries folder up long target entry goesOn links t ih =>
      have link : root.look (here ++ [part]) = some (.link target) := by
        rw [look_link, get_entry root here entries part folder, entry]
      exact (plain.straight (here ++ [part]) ⟨rest, by simp⟩ (by simp) target link).elim
  | case10 links here part rest entries folder up long child notLink entry ih =>
      rw [ih (by simpa using plain) walked]
      simp
  | _ => cases walked

theorem walk_fits (root : Node) (follow : Bool) (links : Nat) (here todo : List String) (s : Spot)
    (plain : root.Plain (here ++ todo)) (walked : root.walk follow links here todo = .ok s) :
    ∀ name ∈ todo, ¬ maxNameSize < (Text.utf8 name).length := by
  fun_induction Node.walk root follow links here todo with
  | case1 links here child found => exact fun name member => by cases member
  | case3 links here rest entries folder ih => exact (plain.down (by simp)).elim
  | case5 links here part rest entries folder up long entry last =>
      rw [List.isEmpty_iff.mp last]
      simpa using long
  | case7 links here part rest entries folder up long target entry last =>
      simp only [Bool.and_eq_true, List.isEmpty_iff] at last
      rw [last.1]
      simpa using long
  | case9 here part rest entries folder up long target entry goesOn links t ih =>
      have link : root.look (here ++ [part]) = some (.link target) := by
        rw [look_link, get_entry root here entries part folder, entry]
      exact (plain.straight (here ++ [part]) ⟨rest, by simp⟩ (by simp) target link).elim
  | case10 links here part rest entries folder up long child notLink entry ih =>
      intro name member
      rcases List.mem_cons.mp member with first | later
      · rw [first]
        exact long
      · exact ih (by simpa using plain) walked name later
  | _ => cases walked

theorem walk_reaches (root n : Node) (follow : Bool) (links : Nat) (here todo : List String)
    (plain : root.Plain (here ++ todo)) (fits : ∀ name ∈ todo, ¬ maxNameSize < (Text.utf8 name).length)
    (there : root.get? (here ++ todo) = some n) :
    root.walk follow links here todo = .ok (.node (here ++ todo) n) := by
  induction todo generalizing here with
  | nil =>
      rw [List.append_nil] at there ⊢
      rw [walk, there]
  | cons part rest ih =>
      have further : here ++ part :: rest = here ++ [part] ++ rest := by simp
      have reached : ∃ child, root.get? (here ++ [part]) = some child := by
        rw [further, get_append] at there
        cases found : root.get? (here ++ [part]) with
        | none => simp [found] at there
        | some child => exact ⟨child, rfl⟩
      obtain ⟨child, next⟩ := reached
      obtain ⟨entries, folder⟩ := above_folder root child here part next
      have entry : entries.lookup part = some child := by rw [← get_entry root here entries part folder, next]
      have up : part ≠ ".." := by
        rintro rfl
        exact plain.down (by simp)
      have long := fits part List.mem_cons_self
      have notLink : ∀ target, child ≠ .link target := by
        rintro target rfl
        exact plain.straight (here ++ [part]) ⟨rest, further.symm⟩ (by simp) target ((look_link root _ target).mpr next)
      have goesOn := ih (here ++ [part]) (by rwa [← further])
        (fun name member => fits name (List.mem_cons_of_mem part member))
        (by rwa [← further])
      rw [walk]
      simp only [folder, up, long, entry, if_false]
      rw [further]
      cases child with
      | link target => exact (notLink target rfl).elim
      | file body modified => exact goesOn
      | folder others => exact goesOn

theorem real_plain (root : Node) (depth : Nat) (active : List (List String)) (here todo parts : List String)
    (plain : root.Plain here) (found : root.real depth active here todo = .ok parts) : root.Plain parts := by
  fun_induction Node.real root depth active here todo generalizing parts with
  | case1 depth active here =>
      cases found
      exact plain
  | case2 depth active here rest ih => exact ih parts (plain_above root _ here (List.dropLast_prefix here) plain) found
  | case5 active here part rest down next target link fresh depth t between reached first after =>
      refine after parts (first between ?_ reached) found
      split
      · exact plain_root root
      · exact plain
  | case7 depth active here part rest down next notLink ih =>
      refine ih parts (plain_below root here part plain down ?_) found
      intro target link
      exact notLink target ((look_link root next target).mp link)
  | _ => cases found

theorem real_down (root : Node) (depth : Nat) (active : List (List String)) (here todo parts : List String)
    (down : ".." ∉ here) (found : root.real depth active here todo = .ok parts) : ".." ∉ parts := by
  fun_induction Node.real root depth active here todo generalizing parts with
  | case1 depth active here =>
      cases found
      exact down
  | case2 depth active here rest ih => exact ih parts (fun up => down ((List.dropLast_prefix here).subset up)) found
  | case5 active here part rest other next target link fresh depth t between reached first after =>
      refine after parts (first between ?_ reached) found
      split
      · exact List.not_mem_nil
      · exact down
  | case7 depth active here part rest other next notLink ih =>
      refine ih parts ?_ found
      intro up
      rcases List.mem_append.mp up with before | last
      · exact down before
      · exact other (List.mem_singleton.mp last).symm
  | _ => cases found

theorem real_straight (root : Node) (depth : Nat) (active : List (List String)) (here todo : List String)
    (plain : root.Plain (here ++ todo)) : root.real depth active here todo = .ok (here ++ todo) := by
  induction todo generalizing here with
  | nil => rw [real, List.append_nil]
  | cons part rest ih =>
      have further : here ++ part :: rest = here ++ [part] ++ rest := by simp
      have up : part ≠ ".." := by
        rintro rfl
        exact plain.down (by simp)
      rw [further] at plain ⊢
      rw [real, if_neg up]
      dsimp only
      split
      · rename_i target link
        exact (plain.straight (here ++ [part]) (List.prefix_append _ rest) (by simp) target
          ((look_link root _ target).mpr link)).elim
      · exact ih (here ++ [part]) plain

-- Real paths depend on the links of a tree only.
theorem real_same (root other : Node)
    (same : ∀ at_ target, other.look at_ = some (.link target) ↔ root.look at_ = some (.link target)) (depth : Nat)
    (active : List (List String)) (here todo : List String) :
    other.real depth active here todo = root.real depth active here todo := by
  have links : ∀ at_ target, other.get? at_ = some (.link target) ↔ root.get? at_ = some (.link target) := by
    intro at_ target
    rw [← look_link, ← look_link, same]
  fun_induction Node.real root depth active here todo with
  | case1 depth active here => rw [real]
  | case2 depth active here rest ih =>
      rw [real, if_pos rfl]
      exact ih
  | case3 depth active here part rest down next target link again =>
      rw [real]
      simp only [down, if_false, (links next target).mpr link, next, again, if_true]
  | case4 active here part rest down next target link fresh =>
      rw [real]
      simp only [down, if_false, (links next target).mpr link, next, fresh, Bool.false_eq_true]
  | case5 active here part rest down next target link fresh depth t between reached first after =>
      rw [real]
      simp only [down, if_false, (links next target).mpr link, next, fresh, Bool.false_eq_true]
      rw [reached] at first
      simp only [t, dite_eq_ite] at first
      rw [first]
      exact after
  | case6 active here part rest down next target link fresh depth t stuck reached first =>
      rw [real]
      simp only [down, if_false, (links next target).mpr link, next, fresh, Bool.false_eq_true]
      rw [reached] at first
      simp only [t, dite_eq_ite] at first
      rw [first]
  | case7 depth active here part rest down next notLink ih =>
      have free : ∀ target, other.get? next ≠ some (.link target) := by
        intro target link
        exact notLink target ((links next target).mp link)
      rw [real]
      simp only [down, if_false]
      split
      · rename_i target link
        exact (free target link).elim
      · exact ih

end Node

namespace FileTree

-- Where a path leads once all links on it are replaced.
def Leads (t : FileTree) (p : Path) (parts : List String) : Prop :=
  t.root.real t.root.linkCount [] (if p.isAbsolute then [] else t.current) p.parts = .ok parts

theorem leads_real (t : FileTree) (p : Path) (parts : List String) (leads : t.Leads p parts) :
    t.real p = .ok ⟨1, parts⟩ := by
  rw [real, leads]

theorem leads_plain (t : FileTree) (p : Path) (parts : List String) (absolute : p.isAbsolute = true)
    (leads : t.Leads p parts) : t.root.Plain parts := by
  rw [Leads, if_pos absolute] at leads
  exact Node.real_plain t.root _ [] [] p.parts parts (Node.plain_root t.root) leads

-- The links of two trees are the same.
structure Linked (t u : FileTree) : Prop where
  current : u.current = t.current
  links : ∀ at_ target, u.root.look at_ = some (.link target) ↔ t.root.look at_ = some (.link target)
  count : u.root.linkCount = t.root.linkCount

theorem linked_stay (t : FileTree) : t.Linked t := ⟨rfl, fun _ _ => Iff.rfl, rfl⟩

theorem linked_chain (t u v : FileTree) (first : t.Linked u) (second : u.Linked v) : t.Linked v :=
  ⟨second.current.trans first.current, fun at_ target => (second.links at_ target).trans (first.links at_ target),
    second.count.trans first.count⟩

theorem built_linked (t u : FileTree) (built : t.Built u) : t.Linked u where
  current := built.current
  links at_ target := by
    constructor
    · intro link
      rcases built.fresh at_ _ link with before | folder
      · exact before
      · cases folder
    · exact built.kept at_ _
  count := built.links

theorem laid_linked (t u : FileTree) (spot : List String) (x : Node) (current : u.current = t.current)
    (laid : t.root.Laid u.root spot x) : t.Linked u :=
  ⟨current, Node.laid_link t.root u.root spot x laid, laid.links⟩

theorem leads_linked (t u : FileTree) (linked : t.Linked u) (p : Path) (parts : List String) :
    u.Leads p parts ↔ t.Leads p parts := by
  rw [Leads, Leads, linked.current, linked.count, Node.real_same t.root u.root linked.links]

theorem plain_linked (t u : FileTree) (linked : t.Linked u) (parts : List String) (plain : t.root.Plain parts) :
    u.root.Plain parts :=
  Node.plain_same t.root u.root parts (fun at_ target => (linked.links at_ target).mp) plain

-- A file with some contents at the place that its path names.
structure Held (t : FileTree) (p : Path) (body : Bytes) : Prop where
  absolute : p.isAbsolute = true
  short : ¬ maxPathSize < (Text.utf8 p.toString).length
  plain : t.root.Plain p.parts
  fits : ∀ name ∈ p.parts, ¬ maxNameSize < (Text.utf8 name).length
  there : ∃ modified, t.root.look p.parts = some (.file body modified)

theorem held_built (t u : FileTree) (p : Path) (body : Bytes) (built : t.Built u) (held : t.Held p body) :
    u.Held p body where
  absolute := held.absolute
  short := held.short
  plain := plain_linked t u (built_linked t u built) p.parts held.plain
  fits := held.fits
  there := by
    obtain ⟨modified, there⟩ := held.there
    exact ⟨modified, built.kept _ _ there⟩

theorem held_laid (t u : FileTree) (p : Path) (body : Bytes) (spot : List String) (x : Node)
    (current : u.current = t.current) (laid : t.root.Laid u.root spot x) (apart : p.parts ≠ spot)
    (held : t.Held p body) : u.Held p body where
  absolute := held.absolute
  short := held.short
  plain := plain_linked t u (laid_linked t u spot x current laid) p.parts held.plain
  fits := held.fits
  there := by
    obtain ⟨modified, there⟩ := held.there
    exact ⟨modified, by rw [Node.laid_other t.root u.root spot x laid p.parts apart, there]⟩

theorem write_named (t u : FileTree) (p : Path) (body : Bytes) (now : Int) (grounded : t.root.isFolder = true)
    (absolute : p.isAbsolute = true) (written : t.write p body now = .ok u) : p.parts ≠ [] := by
  intro top
  have walked : t.root.walk true maxLinks [] p.parts = .ok (.node [] t.root) := by
    rw [top, Node.walk]
    rfl
  rw [write] at written
  cases located : t.locate true p with
  | error fault =>
      rw [located] at written
      cases written
  | ok s =>
      obtain ⟨_, reached⟩ := (locate_walk t true p s).mp located
      rw [if_pos absolute, walked] at reached
      cases reached
      rw [located] at written
      cases rootEq : t.root with
      | folder entries =>
          rw [rootEq] at written
          cases written
      | file old modified =>
          rw [rootEq] at grounded
          cases grounded
      | link target =>
          rw [rootEq] at grounded
          cases grounded

theorem write_held (t u : FileTree) (p : Path) (body : Bytes) (now : Int) (grounded : t.root.isFolder = true)
    (absolute : p.isAbsolute = true) (plain : t.root.Plain p.parts) (written : t.write p body now = .ok u) :
    u.Held p body ∧ u.current = t.current ∧ t.root.Laid u.root p.parts (.file body now) := by
  have named := write_named t u p body now grounded absolute written
  obtain ⟨spot, located, current, _, laid⟩ := file_written t u p body now named written
  have reached : ∃ s : Spot, s.place = spot ∧ t.locate true p = .ok s := by
    rcases located with vacant | ⟨n, there⟩
    · exact ⟨.vacant spot, rfl, vacant⟩
    · exact ⟨.node spot n, rfl, there⟩
  obtain ⟨s, place, found⟩ := reached
  obtain ⟨short, walked⟩ := (locate_walk t true p s).mp found
  rw [if_pos absolute] at walked
  have same := Node.walk_place t.root true _ [] p.parts s plain walked
  rw [place, List.nil_append] at same
  subst same
  refine ⟨⟨absolute, short, ?_, Node.walk_fits t.root true _ [] p.parts s plain walked, now, ?_⟩, current, laid⟩
  · exact plain_linked t u (laid_linked t u _ _ current laid) p.parts plain
  · exact Node.laid_there t.root u.root p.parts _ laid

theorem grounded_above (root n : Node) (at_ : List String) (there : root.get? at_ = some n)
    (folder : n.isFolder = true) : root.isFolder = true := by
  cases at_ with
  | nil =>
      cases there
      exact folder
  | cons name rest =>
      cases root with
      | folder entries => rfl
      | _ => cases there

theorem folder_grounded (t : FileTree) (p : Path) (folder : t.isFolder p = true) : t.root.isFolder = true := by
  rw [isFolder, node] at folder
  cases located : t.locate true p with
  | error fault =>
      rw [located] at folder
      cases folder
  | ok s =>
      obtain ⟨_, walked⟩ := (locate_walk t true p s).mp located
      rw [located] at folder
      cases s with
      | vacant at_ => cases folder
      | node at_ n => exact grounded_above t.root n at_ (Node.walk_there t.root true _ _ _ at_ n walked) folder

theorem made_grounded (t u : FileTree) (p : Path) (made : t.makeFolder p = .ok u) : u.root.isFolder = true := by
  obtain ⟨spot, located, _, _, laid⟩ := folder_made t u p made
  obtain ⟨_, walked⟩ := (locate_walk t false p _).mp located
  obtain ⟨above, name, entries, rfl, folder⟩ := Node.vacant_above t.root false _ _ _ spot walked
  have there := Node.laid_there t.root u.root _ _ laid
  obtain ⟨others, found⟩ := (Node.look_folder u.root _).mp there
  exact grounded_above u.root _ _ found rfl

theorem folders_grounded (t u : FileTree) (p : Path) (made : t.makeFolders p = .ok u) : u.root.isFolder = true := by
  have last : ∀ v, Housed v u p → u.root.isFolder = true := by
    rintro v (one | ⟨rfl, folder⟩)
    · exact made_grounded v u p one
    · exact folder_grounded u p folder
  rcases folders_cases t u p made with housed | ⟨_, v, _, housed⟩
  · exact last t housed
  · exact last v housed

end FileTree

end HostingAdmin
