import Mathlib.Data.Nat.Digits.Defs
import HostingAdmin.Api.Assets
import HostingAdmin.Proofs.ManifestFile
import HostingAdmin.Proofs.MultipartFraming

set_option autoImplicit false

namespace HostingAdmin

namespace Json

-- A printing character of ASCII.
def Visible (c : Char) : Prop := 0x20 ≤ c.toNat ∧ c.toNat < 0x7F

instance (c : Char) : Decidable (Visible c) := instDecidableAnd

instance (cs : List Char) : Decidable (∀ c ∈ cs, Visible c) := List.decidableBAll _ _

theorem hex_digit_visible : ∀ n < 16, Visible (Text.hexDigit n) := by
  decide

theorem hex_visible (width n : Nat) : ∀ c ∈ Text.hex width n, Visible c := by
  induction width generalizing n with
  | zero => simp [Text.hex]
  | succ width ih =>
      intro c member
      rw [Text.hex, List.mem_append, List.mem_singleton] at member
      rcases member with before | rfl
      · exact ih _ c before
      · exact hex_digit_visible _ (Nat.mod_lt _ (by decide))

theorem unit_visible (u : Nat) : ∀ c ∈ unitEscape u, Visible c := by
  intro c member
  rw [unitEscape, List.mem_cons, List.mem_cons] at member
  rcases member with rfl | rfl | digit
  · decide
  · decide
  · exact hex_visible 4 u c digit

theorem short_visible (c : Char) (e : List Char) (short : shortEscape? c = some e) : ∀ b ∈ e, Visible b := by
  unfold shortEscape? at short
  split at short
  all_goals first
    | cases short
      decide
    | cases short

theorem ascii_visible (c : Char) : ∀ b ∈ asciiChar c, Visible b := by
  rw [asciiChar]
  cases shortEq : shortEscape? c with
  | some e => exact short_visible c e shortEq
  | none =>
      dsimp only
      split
      · intro b member
        rw [List.mem_singleton.mp member]
        assumption
      · split
        · exact unit_visible _
        · intro b member
          rcases List.mem_append.mp member with high | low
          · exact unit_visible _ b high
          · exact unit_visible _ b low

-- Text of visible ASCII characters, so without a line break.
def Plain (s : String) : Prop := ∀ c ∈ s.toList, Visible c

instance (s : String) : Decidable (Plain s) := List.decidableBAll _ _

theorem plain_append (s t : String) (first : Plain s) (second : Plain t) : Plain (s ++ t) := by
  intro c member
  rw [String.toList_append, List.mem_append] at member
  exact member.elim (first c) (second c)

theorem quoted_plain (s : String) : Plain (Layout.spaced.quoted s) := by
  intro c member
  rw [quoted_chars, List.mem_cons, List.mem_append, List.mem_flatMap, List.mem_singleton] at member
  rcases member with rfl | ⟨source, _, inside⟩ | rfl
  · decide
  · exact ascii_visible source c inside
  · decide

theorem digit_char_visible (c : Char) (digit : c.isDigit = true) : Visible c := by
  simp only [Char.isDigit, Bool.and_eq_true, decide_eq_true_eq] at digit
  have low : 48 ≤ c.toNat := digit.1
  have high : c.toNat ≤ 57 := digit.2
  exact ⟨by omega, by omega⟩

theorem int_plain (n : Int) : Plain (toString n) := by
  intro c member
  rw [int_chars, List.mem_append] at member
  rcases member with sign | digit
  · split at sign
    · rw [List.mem_singleton.mp sign]
      decide
    · cases sign
  · exact digit_char_visible c (digits_all _ c digit)

theorem line_plain (k : Nat) : Plain (Layout.spaced.line k) :=
  fun _ member => by cases member

mutual

theorem write_plain (r : Rules) (k d : Nat) (j : Json) (legible : Legible r d j) : Plain (write .spaced k j) := by
  match j with
  | .null => exact (by decide : Plain "null")
  | .bool true => exact (by decide : Plain "true")
  | .bool false => exact (by decide : Plain "false")
  | .int n => exact int_plain n
  | .float x => exact legible.elim
  | .str s => exact quoted_plain s
  | .arr [] => exact (by decide : Plain "[]")
  | .arr (x :: xs) =>
      have opens := plain_append "[" _ (by decide) (line_plain (k + 1))
      have first := plain_append _ _ opens (write_plain r (k + 1) (d + 1) x legible.2.1)
      have others := plain_append _ _ first (items_plain r (k + 1) (d + 1) xs legible.2.2)
      exact plain_append _ "]" (plain_append _ _ others (line_plain k)) (by decide)
  | .obj [] => exact (by decide : Plain "\x7b\x7d")
  | .obj ((key, x) :: ms) =>
      have opens := plain_append "\x7b" _ (by decide) (line_plain (k + 1))
      have named := plain_append _ ": " (plain_append _ _ opens (quoted_plain key)) (by decide)
      have first := plain_append _ _ named (write_plain r (k + 1) (d + 1) x legible.2.2.1)
      have others := plain_append _ _ first (members_plain r (k + 1) (d + 1) ms legible.2.2.2)
      exact plain_append _ "\x7d" (plain_append _ _ others (line_plain k)) (by decide)

theorem items_plain (r : Rules) (k d : Nat) (xs : List Json) (legible : LegibleItems r d xs) :
    Plain (writeItems .spaced k xs) := by
  match xs with
  | [] => exact (by decide : Plain "")
  | x :: xs =>
      have comma := plain_append ", " _ (by decide) (line_plain k)
      have first := plain_append _ _ comma (write_plain r k d x legible.1)
      exact plain_append _ _ first (items_plain r k d xs legible.2)

theorem members_plain (r : Rules) (k d : Nat) (ms : List (String × Json)) (legible : LegibleMembers r d ms) :
    Plain (writeMembers .spaced k ms) := by
  match ms with
  | [] => exact (by decide : Plain "")
  | (key, x) :: ms =>
      have comma := plain_append ", " _ (by decide) (line_plain k)
      have named := plain_append _ ": " (plain_append _ _ comma (quoted_plain key)) (by decide)
      have first := plain_append _ _ named (write_plain r k d x legible.1)
      exact plain_append _ _ first (members_plain r k d ms legible.2)

end

theorem plain_octets (s : String) (plain : Plain s) (b : UInt8) (member : b ∈ Text.utf8 s) :
    0x20 ≤ b.toNat ∧ b.toNat < 0x7F := by
  rw [Text.utf8, List.mem_flatMap] at member
  obtain ⟨c, inside, octet⟩ := member
  have visible := plain c inside
  rw [char_octet c (by have := visible.2; omega), List.mem_singleton] at octet
  rw [octet, Text.octet _ (by have := visible.2; omega)]
  exact visible

theorem plain_line (s : String) (plain : Plain s) : 0x0D ∉ Text.utf8 s := by
  intro member
  exact absurd (plain_octets s plain 0x0D member).1 (by decide)

end Json

namespace Asset

def given (present : Bool) (name : String) (value : Json) : Members Json := if present then [(name, value)] else []

theorem lookup_given (present : Bool) (name key : String) (value : Json) (rest : Members Json) :
    (given present name value ++ rest).lookup key =
      if key = name ∧ present = true then some value else rest.lookup key := by
  cases present with
  | false => simp [given]
  | true => simp [given, Members.lookup_entry]

theorem optional_given {α : Type} (read : Json → Checked α) (ms : Members Json) (name other : String) (d x : α)
    (present : Bool) (value : Json) (found : ms.lookup name = if present then some value else none)
    (absent : ms.lookup other = none) (reads : read value = .ok x) (usual : present = false → x = d) :
    Check.optional ms [name, other] read d = .ok x := by
  cases present with
  | true => simp [Check.optional, Check.field, found, reads, Checked.under, Except.mapError]
  | false => simp [Check.optional, Check.field, found, absent, usual rfl]

-- What an upload says about the asset: of its texts and numbers only those that are
-- not empty.
def uploadFields (a : Asset) : Members Json :=
  ("path", .str a.path) :: (given (a.appId != "") "appId" (.str a.appId) ++
    (given (a.hash != "") "hash" (.str a.hash) ++ (given (a.size != 0) "size" (.int a.size) ++
      [("attrs", Attribute.listJson a.attrs)])))

theorem upload_fields (a : Asset) : a.uploadMeta = .obj a.uploadFields := by
  simp [uploadMeta, uploadFields, given]

theorem lookup_upload (a : Asset) (key : String) : a.uploadFields.lookup key =
    if key = "path" then some (.str a.path)
    else if key = "appId" ∧ (a.appId != "") = true then some (.str a.appId)
    else if key = "hash" ∧ (a.hash != "") = true then some (.str a.hash)
    else if key = "size" ∧ (a.size != 0) = true then some (.int a.size)
    else if key = "attrs" then some (Attribute.listJson a.attrs) else none := by
  rw [uploadFields, Members.lookup_entry, lookup_given, lookup_given, lookup_given, Members.lookup_entry,
    List.lookup_nil]

theorem meta_checked (source : Source) (a : Asset) :
    Asset.check source a.uploadMeta = .ok { a with lastModified := 0, url := "" } := by
  have found := lookup_upload a
  have app : Check.optional a.uploadFields ["appId", "app_id"] Check.string "" = .ok a.appId :=
    optional_given _ _ _ _ _ _ (a.appId != "") (.str a.appId) (by simp [found]) (by simp [found]) rfl (by simp)
  have path : Check.required a.uploadFields ["path", "file_path"] Check.string = .ok a.path := rfl
  have hash : Check.optional a.uploadFields ["hash", "file_hash"] Check.string "" = .ok a.hash :=
    optional_given _ _ _ _ _ _ (a.hash != "") (.str a.hash) (by simp [found]) (by simp [found]) rfl (by simp)
  have size : Check.optional a.uploadFields ["size", "file_size"] Check.integer 0 = .ok a.size :=
    optional_given _ _ _ _ _ _ (a.size != 0) (.int a.size) (by simp [found]) (by simp [found]) rfl (by simp)
  have attrs : Check.optional a.uploadFields ["attrs"] (Check.list source (Attribute.check source)) [] =
      .ok a.attrs := by
    simp [Check.optional, Check.field, found, attributes_checked, Checked.under, Except.mapError]
  have time : Check.optional a.uploadFields ["last_modified"] Check.integer 0 = .ok 0 := by
    simp [Check.optional, Check.field, found]
  have url : Check.optional a.uploadFields ["url"] Check.string "" = .ok "" := by
    simp [Check.optional, Check.field, found]
  simp only [upload_fields, Asset.check, Check.record, app, path, hash, size, attrs, time, url]
  rfl

theorem meta_legible (r : Json.Rules) (shallow : ∀ d ≤ 2, r.allows d = true) (a : Asset) (short : Json.Short a.size) :
    Json.Legible r 0 a.uploadMeta := by
  have digits : (Nat.toDigits 10 a.size.natAbs).length ≤ Json.maxDigits := short
  have attrs := attributes_legible r 1 (shallow 1 (by decide)) (shallow 2 (by decide)) a.attrs
  rw [upload_fields]
  refine ⟨shallow 0 (by decide), ?_, ?_⟩
  · rw [uploadFields]
    cases a.appId != "" <;> cases a.hash != "" <;> cases a.size != 0 <;> simp [given, Members.names]
  · rw [uploadFields]
    cases a.appId != "" <;> cases a.hash != "" <;> cases a.size != 0 <;>
      simp [given, Json.LegibleMembers, Json.Legible, digits, attrs]

theorem word_short (n : Int) (word : n.natAbs < 2 ^ 64) : Json.Short n := by
  have twenty := Nat.toDigits_length 10 n.natAbs 20 (by decide) (by omega)
  exact Nat.le_trans twenty (by decide)

theorem meta_opens (a : Asset) : ∃ rest, a.uploadMeta.spaced.toList = '\x7b' :: '"' :: rest := by
  rw [upload_fields, uploadFields, Json.spaced, Json.object_chars, Json.quoted_chars]
  exact ⟨_, rfl⟩

theorem meta_line (a : Asset) (short : Json.Short a.size) : 0x0D ∉ Text.utf8 a.uploadMeta.spaced :=
  Json.plain_line _ (Json.write_plain .free 0 0 a.uploadMeta (meta_legible .free (fun _ _ => rfl) a short))

theorem meta_read (a : Asset) (short : Json.Short a.size) :
    Json.ofBytes (Text.utf8 a.uploadMeta.spaced) = .ok a.uploadMeta := by
  obtain ⟨rest, opens⟩ := meta_opens a
  have legible := meta_legible .free (fun _ _ => rfl) a short
  exact Json.bytes_read .spaced Json.spaced_regular a.uploadMeta legible _ _ rest opens (.inr rfl) (by decide)

theorem meta_framed (boundary : String) (a : Asset) (short : Json.Short a.size) :
    Multipart.Framed boundary (Text.utf8 a.uploadMeta.spaced) := by
  have single := meta_line a short
  constructor
  · intro front
    obtain ⟨rest, opens⟩ := meta_opens a
    have octets : Text.utf8 a.uploadMeta.spaced = 0x7B :: ('"' :: rest).flatMap String.utf8EncodeChar := by
      rw [Text.utf8, opens]
      rfl
    rw [octets, Multipart.dashes_octets, List.cons_prefix_cons] at front
    exact absurd front.1 (by decide)
  · intro within
    rw [Multipart.delimiter_octets] at within
    exact single (within.subset List.mem_cons_self)

end Asset

namespace Multipart

theorem absent_framed (boundary : String) (body : Bytes) (absent : ¬ dashes boundary <:+: body) :
    Framed boundary body :=
  ⟨fun front => absent front.isInfix, fun within => absent ((List.suffix_append _ _).isInfix.trans within)⟩

-- A boundary of hexadecimal digits.
def Hex (boundary : String) : Prop := ∀ c ∈ boundary.toList, (Text.hexDigit? c).isSome = true

instance (boundary : String) : Decidable (Hex boundary) := List.decidableBAll _ _

theorem hex_plain (boundary : String) (hex : Hex boundary) : Json.Plain boundary := by
  intro c member
  have digit := hex c member
  unfold Text.hexDigit? at digit
  have range : ∀ low high : Char, 0x20 ≤ low.toNat → high.toNat < 0x7F → low ≤ c ∧ c ≤ high → Json.Visible c := by
    intro low high least greatest between
    have above : low.toNat ≤ c.toNat := between.1
    have below : c.toNat ≤ high.toNat := between.2
    exact ⟨by omega, by omega⟩
  split at digit
  · exact range '0' '9' (by decide) (by decide) ‹_›
  · split at digit
    · exact range 'a' 'f' (by decide) (by decide) ‹_›
    · split at digit
      · exact range 'A' 'F' (by decide) (by decide) ‹_›
      · cases digit

end Multipart

namespace Hosting

-- An upload is taken apart into what was said about the asset and its contents, whatever
-- its texts are and whatever it contains.
theorem upload_read (a : Asset) (body : Bytes) (boundary : String) (word : a.size.natAbs < 2 ^ 64)
    (hex : Multipart.Hex boundary) (apart : ¬ Multipart.dashes boundary <:+: body) :
    ∃ about fields,
      Multipart.read? boundary (encodeUpload boundary a.uploadMeta body).1 = some [("meta", about), ("file", body)] ∧
      Json.ofBytes about = .ok fields ∧ Json.ofBytesStrict? about = some fields ∧
      ∀ source, Asset.check source fields = .ok { a with lastModified := 0, url := "" } := by
  have short := Asset.word_short a.size word
  refine ⟨Text.utf8 a.uploadMeta.spaced, a.uploadMeta, ?_, Asset.meta_read a short, ?_,
    fun source => Asset.meta_checked source a⟩
  · have plain := Json.plain_line boundary (Multipart.hex_plain boundary hex)
    have nameable : Multipart.Nameable "meta" ∧ Multipart.Nameable "file" :=
      ⟨⟨by decide, by decide⟩, by decide, by decide⟩
    have framed := Asset.meta_framed boundary a short
    rw [encodeUpload]
    generalize Text.utf8 a.uploadMeta.spaced = about at framed
    apply Multipart.encode_read boundary plain
    simp only [List.forall_mem_cons, List.not_mem_nil, false_implies, implies_true, and_true]
    exact ⟨⟨nameable.1, framed⟩, nameable.2, Multipart.absent_framed boundary body apart⟩
  · have shallow : ∀ d ≤ 2, Json.Rules.strict.allows d = true := by decide
    exact Json.strict_read .spaced Json.spaced_regular a.uploadMeta (Asset.meta_legible .strict shallow a short)

-- A path that looks like the end of the body, and contents that stop short of the
-- delimiter.
theorem upload_read_marks :
    ∃ about fields,
      Multipart.read? "0f" (encodeUpload "0f"
        (Asset.uploadMeta ⟨"", "/\r\n--0f--\r\n\"😀", "", -1, [⟨"\u2028", "\x00"⟩], 5, "u"⟩)
        [0x0D, 0x0A, 0x2D, 0x2D, 0x30, 0x00, 0xFF]).1 =
        some [("meta", about), ("file", [0x0D, 0x0A, 0x2D, 0x2D, 0x30, 0x00, 0xFF])] ∧
      Json.ofBytes about = .ok fields ∧ Json.ofBytesStrict? about = some fields ∧
      ∀ source, Asset.check source fields =
        .ok ⟨"", "/\r\n--0f--\r\n\"😀", "", -1, [⟨"\u2028", "\x00"⟩], 0, ""⟩ :=
  upload_read ⟨"", "/\r\n--0f--\r\n\"😀", "", -1, [⟨"\u2028", "\x00"⟩], 5, "u"⟩
    [0x0D, 0x0A, 0x2D, 0x2D, 0x30, 0x00, 0xFF] "0f" (by decide) (by decide) (by decide)

end Hosting

end HostingAdmin
