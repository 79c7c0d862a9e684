import HostingAdmin.Proofs.SessionCommands
import HostingAdmin.Proofs.SparedFile

set_option autoImplicit false

namespace HostingAdmin.Session

open HostingAdmin.Action

-- Two paths that do not lead to the same node.
def Apart (t : FileTree) (p q : Path) : Prop :=
  ∀ spot n m, t.locate true p = .ok (.node spot n) → t.locate true q ≠ .ok (.node spot m)

theorem stable_apart (t u : FileTree) (p q : Path) (stable : t.Stable u) (apart : Apart t p q) : Apart u p q := by
  intro spot n m first second
  obtain ⟨n', _, before⟩ := u.locate_grown t stable.current.symm stable.shrinks p spot n first
  obtain ⟨m', _, after⟩ := u.locate_grown t stable.current.symm stable.shrinks q spot m second
  exact apart spot n' m' before after

-- A file that is written under one path is not what another one leads to, if it was not before.
theorem written_apart (t u : FileTree) (p q : Path) (held body : Bytes) (now : Int) (there : t.read p = .ok held)
    (named : q.parts ≠ []) (written : t.write q body now = .ok u) (apart : Apart t p q) : Apart u p q := by
  obtain ⟨spot, modified, located⟩ := FileTree.read_spot t p held there
  have found := Node.walk_there t.root true _ _ _ spot _ ((FileTree.locate_walk t true p _).mp located).2
  obtain ⟨at_, place, grows, current, last⟩ := FileTree.written_located t u q body now named written
  obtain ⟨m, _, again⟩ := FileTree.locate_grown t u current grows p spot _ located
  have other : spot ≠ at_ := by
    rintro rfl
    rcases place with vacant | ⟨n, same⟩
    · have empty := Node.walk_vacant t.root true _ _ _ spot ((FileTree.locate_walk t true q _).mp vacant).2
      rw [found] at empty
      cases empty
    · exact apart spot _ n located same
  intro s n n' first second
  rw [again] at first
  rw [last] at second
  cases first
  cases second
  exact other rfl

theorem linked_passage : Passage fun w v : World => w.files.Linked v.files where
  stay w := FileTree.linked_stay w.files
  chain u v w := FileTree.linked_chain u.files v.files w.files
  book w _ _ := FileTree.linked_stay w.files

section

variable (cfg : Path) (named : cfg.parts ≠ [])

include named

theorem save_linked (q : Profile) : Within (fun w v => w.files.Linked v.files) (Profile.save cfg q) := by
  have passage := linked_passage
  apply within_bind passage
  · apply within_changed passage
    exact fun w files made => FileTree.built_linked _ _ (FileTree.folders_built w.files files _ made)
  · intro _
    apply within_bind passage
    · intro u
      rw [Hosting.store_performed]
      exact within_changed passage _ _ (fun w files written =>
        FileTree.write_linked w.files files cfg _ _ named written) u
    · exact fun _ => within_record passage _ _ _

theorem send_linked (base : Url) (r : Request) :
    Within (fun w v => w.files.Linked v.files) (Channel.send ⟨.wire base, Profile.save cfg⟩ r) :=
  send_within linked_passage ⟨.wire base, Profile.save cfg⟩ (fun c => advance_kept linked_passage
    (fun w _ => FileTree.linked_stay w.files) (fun w _ _ => FileTree.linked_stay w.files) _ (save_linked cfg named) c) r

end

theorem send_given (server : Server) (cfg : Path) (base : Url) (r : Request) :
    Ends (Serves server) (Given server) Any (Channel.send ⟨.wire base, Profile.save cfg⟩ r) := by
  have saves : ∀ q : Profile, q.Holds (fun _ => True) → Ends (Serves server) Any (Unreached cfg) (Profile.save cfg q) :=
    fun q _ => save_ends (serves_roomy server) (serves_sees server) cfg q
  have sent := send_ends (serves_houses server) (fun _ _ _ _ _ _ => trivial) base _ saves r
  exact ends_weaken _ sent (fun _ fine => fine) fun _ _ => trivial

-- What a session has come to that began somewhere, as far as its own file is concerned.
structure Worked (base : Url) (cfg : Path) (start w : World) : Prop where
  works : Works ⟨.wire base, Profile.save cfg⟩ cfg start w
  serves : w.server = start.server
  linked : start.files.Linked w.files
  readable : Profile.Readable cfg w.files

-- The same with the cache in another file.
def Caches (base : Url) (cfg cache : Path) (start w : World) : Prop :=
  Worked base cfg start w ∧ Apart w.files cfg cache

section

variable (base : Url) (cfg : Path) (start : World)

theorem worked_aside (w v : World) (same : v.server = w.server) (linked : w.files.Linked v.files)
    (other : Aside cfg w v) (worked : Worked base cfg start w) : Worked base cfg start v where
  works := .aside w v worked.works other
  serves := same.trans worked.serves
  linked := FileTree.linked_chain start.files w.files v.files worked.linked linked
  readable := by
    obtain ⟨clean, named, body, there⟩ := worked.readable
    exact ⟨clean, named, body, other.2.2.trans there⟩

theorem worked_quiet : Quiet (Worked base cfg start) := by
  intro w v serves exchanges profile renewals files worked
  have still : w.files.Linked v.files := files ▸ FileTree.linked_stay w.files
  exact worked_aside base cfg start w v serves still ⟨profile, renewals, by rw [files]⟩ worked

theorem worked_sparing : Sparing start.server cfg start.files (Worked base cfg start) where
  quiet := worked_quiet base cfg start
  serves _ worked := worked.serves
  linked _ worked := worked.linked
  held _ worked := worked.readable.2.2
  fetches w _ _ := worked_aside base cfg start w _ rfl (FileTree.linked_stay w.files) ⟨rfl, rfl, rfl⟩
  writes w _ linked same := worked_aside base cfg start w _ rfl linked ⟨rfl, rfl, same⟩

theorem send_worked (r : Request) : Within (fun w v => Worked base cfg start w → Worked base cfg start v)
    (Channel.send ⟨.wire base, Profile.save cfg⟩ r) := by
  intro w worked
  have works := send_works ⟨.wire base, Profile.save cfg⟩ cfg r w
  refine ⟨(works_passage _ cfg).chain start w _ worked.works works, ?_, ?_, ?_⟩
  · exact ((send_given start.server cfg base r) w worked.serves).1
  · exact FileTree.linked_chain start.files w.files _ worked.linked (send_linked cfg worked.readable.2.1 base r w)
  · exact (works_keeps (.wire base) cfg w _ works worked.readable).1

theorem caches_quiet (cache : Path) : Quiet (Caches base cfg cache start) := by
  rintro w v serves exchanges profile renewals files ⟨worked, apart⟩
  exact ⟨worked_quiet base cfg start w v serves exchanges profile renewals files worked, files ▸ apart⟩

theorem send_caches (cache : Path) (r : Request) :
    Within (fun w v => Caches base cfg cache start w → Caches base cfg cache start v)
      (Channel.send ⟨.wire base, Profile.save cfg⟩ r) := by
  rintro w ⟨worked, apart⟩
  have stable := (send_within (shifts_passage cfg) ⟨.wire base, Profile.save cfg⟩ (advance_shifts (.wire base) cfg) r
    w).stable worked.readable
  exact ⟨send_worked base cfg start r w worked, stable_apart _ _ _ _ stable apart⟩

-- Saving the cache leaves the profile alone, unless both are one file.
theorem stow_caches (s : Settings) (known : Cache) :
    Within (fun w v => Caches base s.configPath s.cachePath start w → Caches base s.configPath s.cachePath start v)
      (known.save s.cachePath) := by
  have passage := (quiet_lenient _ (caches_quiet base s.configPath start s.cachePath)).passage
  have folder : s.cachePath.parent = s.configPath.parent := by
    rw [cache_beside, Path.parent, List.dropLast_concat]
    rfl
  have below : s.cachePath.parts ≠ [] := by simp [cache_beside]
  have stored : Within (fun w v => Caches base s.configPath s.cachePath start w →
      Caches base s.configPath s.cachePath start v) (store s.cachePath known.fileText) := by
    intro u
    rw [Hosting.store_performed]
    refine within_changed passage _ _ ?_ u
    rintro w files written ⟨worked, apart⟩
    obtain ⟨_, _, held, there⟩ := worked.readable
    have again := FileTree.write_other w.files files s.configPath s.cachePath held _ _ there below written apart
    have linked := FileTree.write_linked w.files files s.cachePath _ _ below written
    refine ⟨worked_aside base s.configPath start w _ rfl linked ⟨rfl, rfl, again.trans there.symm⟩ worked, ?_⟩
    exact written_apart w.files files s.configPath s.cachePath held _ _ there below written apart
  intro w caches
  rw [Cache.save, perform_bind, folder, Profile.folders_made s.configPath w caches.1.readable]
  exact within_bind passage _ _ stored (fun _ => within_pure passage _) w caches

end

open CommandLine

-- Commands that leave the profile file to their session, in view of where the cache lies
-- and of where an export may write.
def Tended (s : Settings) (w : World) : Command → Prop
  | .listSecrets _ => True
  | .addSecret _ _ _ => True
  | .updateSecret _ _ _ => True
  | .removeSecret _ _ => True
  | .listAssets _ => True
  | .diffAssets _ _ _ => Apart w.files s.configPath s.cachePath
  | .importAssets _ _ _ _ _ _ => Apart w.files s.configPath s.cachePath
  | .exportAssets _ folder _ => Hosting.Clear w.server w.files s.configPath (Path.ofString folder)
  | _ => False

theorem command_left (s : Settings) (c : Command) (w : World) (named : s.configPath.parts ≠ [])
    (tended : Tended s w c) :
    match (openSession s).perform w with
    | (.error f, _) => (c.run s).perform w = (.error f, w)
    | (.ok _, opened) => Left s.configPath w opened ((c.run s).perform w).2 := by
  have needs : c.needsSession = true := by cases c <;> first | rfl | exact tended.elim
  obtain ⟨body, whole, steps⟩ := session_body s c needs
  rw [whole, perform_bind]
  rcases session_opens s w with ⟨f, failed⟩ | ⟨p, link, opened, loaded, clean, text, there⟩
  · rw [failed]
  · obtain ⟨base, wired⟩ := session_wired s _ ⟨w, _, opened⟩
    rw [opened, wired]
    let start : World := { w with profile := p }
    have began : Worked base s.configPath start start :=
      ⟨.rest, rfl, FileTree.linked_stay w.files, clean, named, text, there⟩
    have sends := fun (r : Request) (_ : r.Routed) => send_worked base s.configPath start r
    have plain (writes : c.Writes s (Channel.send ⟨.wire base, Profile.save s.configPath⟩)
        fun u v => Worked base s.configPath start u → Worked base s.configPath start v) :=
      steps _ (quiet_lenient _ (worked_quiet base s.configPath start)) _ sends writes start began
    have cached (apart : Apart w.files s.configPath s.cachePath)
        (writes : c.Writes s (Channel.send ⟨.wire base, Profile.save s.configPath⟩)
          fun u v => Caches base s.configPath s.cachePath start u → Caches base s.configPath s.cachePath start v) :=
      steps _ (quiet_lenient _ (caches_quiet base s.configPath start s.cachePath)) _
        (fun r _ => send_caches base s.configPath start s.cachePath r) writes start ⟨began, apart⟩
    apply works_left (.wire base) s.configPath named w p _ loaded clean text there
    cases c with
    | diffAssets place folder strategy => exact (cached tended (stow_caches base start s)).1.works
    | importAssets place folder strategy resetCache wish yes => exact (cached tended (stow_caches base start s)).1.works
    | exportAssets place folder wish =>
        refine (plain fun group app style => ?_).works
        exact Hosting.export_spares (worked_sparing base s.configPath start) named _ sends
          (send_given w.server s.configPath base) group app _ style tended
    | login l => exact tended.elim
    | logout => exact tended.elim
    | whoami => exact tended.elim
    | _ => exact (plain trivial).works

end HostingAdmin.Session
