import HostingAdmin.Proofs.VisitSteps

set_option autoImplicit false

namespace HostingAdmin

open HostingAdmin.Action

namespace FileTree

-- A file can be put under a path, once the folders above it are made.
def Takes (t : FileTree) (p : Path) : Prop :=
  ∃ u, t.makeFolders p.parent = .ok u ∧ ∀ body now, ∃ v, u.write p body now = .ok v

theorem file_takes (t : FileTree) (p : Path) (old : Bytes) (named : p.parts ≠ []) (there : t.read p = .ok old) :
    t.Takes p := by
  obtain ⟨spot, modified, located⟩ := read_spot t p old there
  refine ⟨t, t.folder_above p _ named located, fun body now => ?_⟩
  obtain ⟨v, written, _⟩ := t.write_read p old body now there
  exact ⟨v, written⟩

theorem takes_named (t : FileTree) (p : Path) (takes : t.Takes p) : p.parts ≠ [] := by
  obtain ⟨u, made, writes⟩ := takes
  obtain ⟨v, written⟩ := writes [] 0
  exact saved_named t u v p [] 0 made written

end FileTree

theorem stored_read (p : Path) (body : Bytes) (w : World) (clean : hasNull p = false) (takes : w.files.Takes p) :
    ∃ made files, (makeFolders p.parent).perform w = (.ok (), { w with files := made }) ∧
      (store p body).perform { w with files := made } = (.ok (), { w with files }) ∧ files.read p = .ok body ∧
      w.files.makeFolders p.parent = .ok made ∧ made.write p body (nanoseconds w.clock) = .ok files := by
  have named := FileTree.takes_named w.files p takes
  obtain ⟨made, folders, writes⟩ := takes
  obtain ⟨files, written⟩ := writes body (nanoseconds w.clock)
  refine ⟨made, files, ?_, ?_, FileTree.written_read made files p body _ named written, folders, written⟩
  · exact Hosting.change_succeeds p.parent (fun t => t.makeFolders p.parent) w made (parent_clean p clean) folders
  · rw [Hosting.store_performed]
    exact Hosting.change_succeeds p (fun t => t.write p body (nanoseconds w.clock)) { w with files := made } files
      clean written

namespace Profile

theorem text_key (x : Profile) : ∃ fields, Json.ofBytesStrict? x.fileText = some fields ∧
    fields.get? "private_api_key" = some (.str x.privateKey) :=
  ⟨x.toJson, Json.strict_read .indented Json.indented_regular x.toJson (profile_legible x), rfl⟩

-- A profile is saved and loaded again as it was, and the private key stands in its file
-- in clear.
theorem saved_loaded (cfg : Path) (x : Profile) (w : World) (clean : hasNull cfg = false)
    (place : w.files.Takes cfg ∨ cfg.parts ≠ [] ∧ ∃ old, w.files.read cfg = .ok old) :
    ∃ v, (save cfg x).perform w = (.ok (), v) ∧ (load cfg).perform v = (.ok x, v) ∧
      ∃ body fields, v.files.read cfg = .ok body ∧ Json.ofBytesStrict? body = some fields ∧
        fields.get? "private_api_key" = some (.str x.privateKey) := by
  have takes : w.files.Takes cfg := by
    rcases place with free | ⟨named, old, there⟩
    · exact free
    · exact w.files.file_takes cfg old named there
  obtain ⟨made, files, folders, stored, held, _⟩ := stored_read cfg x.fileText w clean takes
  obtain ⟨v, recorded, calm⟩ := record_within calm_passage .debug "Profile written" [("path", .str cfg.toString)]
    { w with files }
  have reads : v.files.read cfg = .ok x.fileText := by
    rw [calm.1]
    exact held
  obtain ⟨fields, parsed, key⟩ := text_key x
  refine ⟨v, ?_, load_written cfg v x clean reads, x.fileText, fields, reads, parsed, key⟩
  rw [save, perform_bind, folders]
  dsimp only
  rw [perform_bind, stored]
  exact recorded

-- A profile with quotes, control characters and characters beyond the basic plane, over
-- a file that is no text.
theorem saved_loaded_over : ∃ v,
    (save ⟨1, ["p"]⟩ ⟨"\"\\", "\x00\x1f\x7f", "😀\u2028-k", "\r\n", ""⟩).perform
      (World.start ⟨.folder [("p", .file [0xFF] 0)], []⟩ fun _ _ => .error .interrupt) = (.ok (), v) ∧
    (load ⟨1, ["p"]⟩).perform v = (.ok ⟨"\"\\", "\x00\x1f\x7f", "😀\u2028-k", "\r\n", ""⟩, v) ∧
    ∃ body fields, v.files.read ⟨1, ["p"]⟩ = .ok body ∧ Json.ofBytesStrict? body = some fields ∧
      fields.get? "private_api_key" = some (.str "😀\u2028-k") := by
  have narrow : ¬maxPathSize < (Text.utf8 (Path.toString ⟨1, ["p"]⟩)).length := by decide
  have short : ¬maxNameSize < (Text.utf8 "p").length := by decide
  have there : FileTree.read ⟨.folder [("p", .file [0xFF] 0)], []⟩ ⟨1, ["p"]⟩ = .ok [0xFF] := by
    apply FileTree.spot_read _ _ ["p"] _ 0
    rw [FileTree.locate, if_neg narrow]
    simp [Path.isAbsolute, Node.walk, Node.get?, Node.child?, short, Except.mapError]
  exact saved_loaded ⟨1, ["p"]⟩ ⟨"\"\\", "\x00\x1f\x7f", "😀\u2028-k", "\r\n", ""⟩ _ (by decide)
    (.inr ⟨by decide, [0xFF], there⟩)

end Profile

end HostingAdmin
