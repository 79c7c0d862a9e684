import HostingAdmin.Proofs.CommandFailures

set_option autoImplicit false

namespace HostingAdmin.CommandLine

open HostingAdmin.Action

namespace Command

def secretPlace? : Command → Option AppPlace
  | .listSecrets place | .addSecret place _ _ | .updateSecret place _ _ | .removeSecret place _ => some place
  | _ => none

def assetPlace? : Command → Option AppPlace
  | .listAssets place | .diffAssets place _ _ | .importAssets place _ _ _ _ _ | .exportAssets place _ _ => some place
  | _ => none

-- The app that a command works on in a session.
def place? (c : Command) : Option AppPlace := c.secretPlace?.or c.assetPlace?

def isOnline : Command → Bool
  | .logout | .whoami => false
  | _ => true

def readsProfile : Command → Bool
  | .logout => false
  | _ => true

def writesFiles : Command → Bool
  | .whoami => false
  | _ => true

-- Commands that read a listing of assets or secrets.
def readsListing : Command → Bool
  | .listSecrets _ | .updateSecret _ _ _ | .removeSecret _ _ => true
  | .listAssets _ | .diffAssets _ _ _ | .importAssets _ _ _ _ _ _ | .exportAssets _ _ _ => true
  | _ => false

def changesSecret : Command → Bool
  | .updateSecret _ _ _ | .removeSecret _ _ => true
  | _ => false

def isImport : Command → Bool
  | .importAssets _ _ _ _ _ _ => true
  | _ => false

-- An import that is asked to work without workers.
def lacksWorkers (s : Settings) : Command → Prop
  | .importAssets _ _ _ _ wish _ => workerCount s wish < 1
  | _ => False

theorem place_online (c : Command) (place : AppPlace) (same : c.place? = some place) :
    c.isOnline = true ∧ c.readsProfile = true ∧ c.writesFiles = true := by
  cases c <;> first | exact ⟨rfl, rfl, rfl⟩ | cases same

theorem secret_place (c : Command) (place : AppPlace) (same : c.secretPlace? = some place) : c.place? = some place := by
  rw [place?, same, Option.some_or]

theorem asset_place (c : Command) (place : AppPlace) (same : c.assetPlace? = some place) : c.place? = some place := by
  cases c <;> first | exact same | cases same

end Command

-- The secret that a command changes: the one that it names, or one that the server lists.
inductive Chooses (server : Server) (group app : String) : Command → String → Prop where
  | named (place : AppPlace) (id : String) : Chooses server group app (.removeSecret place (.id id)) id
  | listed (c : Command) (changes : c.changesSecret = true) (r : Response) (secrets : List Secret) (x : Secret)
      (given : Given server r) (read : (Secret.list group app).read r = .ok secrets) (among : x ∈ secrets) :
      Chooses server group app c x.id

-- The paths of the requests that a command makes, those of single assets apart.
inductive Addresses (server : Server) (c : Command) : String → Prop where
  | login (l : Login) (same : c = .login l) : Addresses server c (Account.logIn (intended l)).request.path
  | renewal (place : AppPlace) (same : c.place? = some place) : Addresses server c Session.renewalRequest.path
  | apps (place : AppPlace) (same : c.place? = some place) : Addresses server c (App.list place.group).request.path
  | secrets (place : AppPlace) (app : String) (same : c.secretPlace? = some place) (reaches : Resolved server place app) :
      Addresses server c (Secret.route place.group app)
  | secret (place : AppPlace) (app id : String) (same : c.secretPlace? = some place) (reaches : Resolved server place app)
      (chosen : Chooses server place.group app c id) : Addresses server c (Secret.route place.group app ++ "/" ++ id)
  | assets (place : AppPlace) (app : String) (same : c.assetPlace? = some place) (reaches : Resolved server place app) :
      Addresses server c (Hosting.assetsRoute place.group app)
  | cache (place : AppPlace) (app : String) (same : c.assetPlace? = some place) (imports : c.isImport = true)
      (reaches : Resolved server place app) : Addresses server c (App.route place.group app ++ "/hosting/cache")

-- The tokens of the stored profile, and those that the server gives.
inductive Ours (server : Server) (files : FileTree) (cfg : Path) (token : String) : Prop where
  | stored (x : Profile) (stored : Stored files cfg x) (has : token = x.accessToken ∨ token = x.refreshToken)
  | granted (r : Response) (t : Tokens) (given : Given server r) (read : Session.readTokens r = .ok t) (has : t.Has token)

-- The paths that an export to a folder looks up.
inductive Looks (server : Server) (files : FileTree) (folder : Path) : Path → Prop where
  | manifest : Looks server files folder (Manifest.location folder)
  | files : Looks server files folder (Manifest.filesFolder folder)
  | asset (t : FileTree) (root : Path) (a : Asset) (linked : files.Linked t)
      (real : t.real (Manifest.filesFolder folder) = .ok root) (offered : Hosting.Offered server a) :
      Looks server files folder (root.join (Hosting.relative a.path))
  | real (t : FileTree) (p q : Path) (looks : Looks server files folder p) (linked : files.Linked t)
      (real : t.real p = .ok q) : Looks server files folder q

-- What an export does not survive: an asset whose URL is none, or whose place cannot be
-- looked up.
inductive Spoils (server : Server) (files : FileTree) (folder : Path) : Failure → Prop where
  | address (a : Asset) (fault : UrlFault) (offered : Hosting.Offered server a)
      (bad : Url.nowhere.below a.url = .error fault) : Spoils server files folder (.url fault)
  | astray (fault : UrlFault) (astray : Astray server fault) : Spoils server files folder (.url fault)
  | null (p : Path) (looks : Looks server files folder p) (bad : hasNull p = true) :
      Spoils server files folder .nullCharacter
  | loop (t : FileTree) (p : Path) (path : String) (looks : Looks server files folder p) (linked : files.Linked t)
      (bad : t.real p = .error path) : Spoils server files folder (.linkLoop path)

-- The failures that a command does not show, and what they take.
inductive Escape (server : Server) (files : FileTree) (s : Settings) (c : Command) : Failure → Prop where
  | json (fault : Json.Fault) (reads : c.readsListing = true) (misread : Misread server fault) :
      Escape server files s c (.json fault)
  | undecodable (reads : c.readsProfile = true) (body : Bytes) (there : files.read s.configPath = .ok body)
      (notText : Text.ofUtf8? body = none) : Escape server files s c .undecodable
  | token (place : AppPlace) (same : c.place? = some place) (token : String) (ours : Ours server files s.configPath token)
      (high : (("Bearer " ++ token).toList.any (128 ≤ ·.toNat)) = true) :
      Escape server files s c (.notAscii ("Bearer " ++ token))
  | base (online : c.isOnline = true) (fault : UrlFault) (bad : (Url.parse s.baseUrl).bind Url.asBase = .error fault) :
      Escape server files s c (.url fault)
  | address (base : Url) (path : String) (fault : UrlFault) (linked : Link.toBase s.baseUrl = .ok (.wire base))
      (addresses : Addresses server c path) (bad : base.below path = .error fault) : Escape server files s c (.url fault)
  | astray (online : c.isOnline = true) (fault : UrlFault) (astray : Astray server fault) :
      Escape server files s c (.url fault)
  | profile (writes : c.writesFiles = true) (null : hasNull s.configPath = true) : Escape server files s c .nullCharacter
  | download (place : AppPlace) (folder : String) (wish : Option Int) (same : c = .exportAssets place folder wish)
      (f : Failure) (spoils : Spoils server files (Path.ofString folder) f) : Escape server files s c f
  | stalled (place : AppPlace) (folder : String) (wish : Option Int) (same : c = .exportAssets place folder wish)
      (f : Failure) (spoils : Spoils server files (Path.ofString folder) f) : Escape server files s c .stalled
  | workerCount (lacks : c.lacksWorkers s) : Escape server files s c .workerCount

-- What a command can fail with, shown or not.
def Fails (server : Server) (files : FileTree) (s : Settings) (c : Command) (f : Failure) : Prop :=
  Usual f ∨ Escape server files s c f

theorem fails_split (server : Server) (files : FileTree) (s : Settings) (c : Command) (f : Failure)
    (fails : Fails server files s c f) : f.isExpected = true ∨ f = .interrupted ∨ Escape server files s c f := by
  rcases fails with usual | escape
  · cases usual with
    | expected f shown => exact .inl shown
    | interrupted => exact .inr (.inl rfl)
  · exact .inr (.inr escape)

-- A session at work on some files: what is written over them leaves their links, and
-- its tokens are ours.
structure During (server : Server) (files : FileTree) (cfg : Path) (w : World) : Prop where
  serves : w.server = server
  linked : files.Linked w.files
  standing : w.files.Standing
  holds : w.profile.Holds (Ours server files cfg)

theorem during_houses (server : Server) (files : FileTree) (cfg : Path) :
    Session.Houses server (Ours server files cfg) (During server files cfg) where
  server _ during := during.serves
  blind _ _ same files profile during :=
    ⟨same.trans during.serves, files ▸ during.linked, files ▸ during.standing, profile ▸ during.holds⟩
  tokens _ during := during.holds
  adopts _ _ same files holds during :=
    ⟨same.trans during.serves, files ▸ during.linked, files ▸ during.standing, holds⟩

theorem during_sees (server : Server) (files : FileTree) (cfg : Path) : Sees server (During server files cfg) :=
  (during_houses server files cfg).toSees

theorem during_roomy (server : Server) (files : FileTree) (cfg : Path) : Roomy (During server files cfg) where
  folders w after p during made := by
    have built := FileTree.folders_built w.files after p made
    exact ⟨during.serves, FileTree.linked_chain _ _ _ during.linked (FileTree.built_linked _ _ built),
      FileTree.built_standing _ _ built during.standing, during.holds⟩
  writes w after p body now during written := by
    obtain ⟨linked, standing⟩ := FileTree.written_standing w.files after p body now during.standing written
    exact ⟨during.serves, FileTree.linked_chain _ _ _ during.linked linked, standing, during.holds⟩

section

variable {server : Server} {files : FileTree} {s : Settings} {c : Command}

-- Only the token of a request can keep its headers from being sent.
theorem bearer_high (r : Request) (token text : String) (plain : Wire.notAscii? (r.headers.getD []) = none)
    (found : Wire.notAscii? ((r.authorized token).headers.getD []) = some text) :
    text = "Bearer " ++ token ∧ (text.toList.any (128 ≤ ·.toNat)) = true := by
  have high := List.find?_some (p := fun s : String => s.toList.any (128 ≤ ·.toNat)) found
  refine ⟨?_, high⟩
  have low : ∀ h ∈ r.headers.getD [], ∀ word, word = h.1 ∨ word = h.2 → ¬ (word.toList.any (128 ≤ ·.toNat)) = true := by
    intro h member word among
    refine List.find?_eq_none.mp plain word (List.mem_flatMap.mpr ⟨h, member, ?_⟩)
    rcases among with rfl | rfl <;> simp
  obtain ⟨⟨name, value⟩, member, among⟩ := List.mem_flatMap.mp (List.mem_of_find?_eq_some found)
  have parts : text = name ∨ text = value := by simpa using among
  rcases Members.mem_put "Authorization" name ("Bearer " ++ token) value _ member with ⟨rfl, rfl⟩ | old
  · rcases parts with rfl | rfl
    · exact absurd high (by decide)
    · rfl
  · exact (low (name, value) old text parts high).elim

theorem cache_clean (s : Settings) (clean : hasNull s.configPath = false) : hasNull s.cachePath = false := by
  have name : Path.ofString ".asset-cache.json" = ⟨0, [".asset-cache.json"]⟩ := by decide
  have above := parent_clean s.configPath clean
  have plain : (".asset-cache.json".toList.contains '\x00') = false := by decide
  simp only [hasNull, Settings.cachePath, Path.append, name, Path.join] at above ⊢
  rw [if_neg (by decide), List.any_append, above, List.any_cons, plain]
  rfl

theorem unanswered_fails (online : c.isOnline = true) (f : Failure) (unanswered : Unanswered server f) :
    Fails server files s c f := by
  cases unanswered with
  | hitch f hitch => exact .inl (hitch_usual f hitch)
  | astray fault astray => exact .inr (.astray online fault astray)

theorem unreached_fails (writes : c.writesFiles = true) (f : Failure) (unreached : Unreached s.configPath f) :
    Fails server files s c f := by
  cases unreached with
  | file fault => exact .inl (.expected _ rfl)
  | null bad => exact .inr (.profile writes bad)

theorem cache_unreached (s : Settings) (f : Failure) (unreached : Unreached s.cachePath f) : Unreached s.configPath f := by
  cases unreached with
  | file fault => exact .file fault
  | null bad =>
      cases clean : hasNull s.configPath with
      | true => exact .null clean
      | false => rw [cache_clean s clean] at bad; cases bad

theorem listed_fails (reads : c.readsListing = true) (f : Failure) (listed : Listed server f) :
    Fails server files s c f := by
  rcases listed with usual | ⟨fault, rfl, misread⟩
  · exact .inl usual
  · exact .inr (.json fault reads misread)

theorem base_ends {I : World → Prop} (online : c.isOnline = true) :
    Ends I (fun link => ∃ base, link = .wire base ∧ Link.toBase s.baseUrl = .ok (.wire base))
      (Fails server files s c) (ofExcept id (Link.toBase s.baseUrl)) := by
  rw [Link.toBase]
  cases parsed : (Url.parse s.baseUrl).bind Url.asBase with
  | error fault => exact ends_throw _ (.inr (.base online fault parsed))
  | ok base => exact ends_pure _ ⟨base, rfl, rfl⟩

theorem read_ends (reads : c.readsProfile = true) :
    Ends (Finds server files) (fun x => x = .empty ∨ Stored files s.configPath x) (Fails server files s c)
      (Profile.load s.configPath) := by
  refine ends_weaken _ (profile_ends server files s.configPath) (fun _ fine => fine) ?_
  rintro f (usual | ⟨rfl, body, there, notText⟩)
  · exact .inl usual
  · exact .inr (.undecodable reads body there notText)

end

-- What the requests of a session come to.
def Sends (server : Server) (files : FileTree) (s : Settings) (base : Url) (send : Sender) : Prop :=
  ∀ r, Ends (During server files s.configPath) (Given server)
    (Session.Uncalled server base (Ours server files s.configPath) (Unreached s.configPath) r) (send r)

section

variable {server : Server} {files : FileTree} {s : Settings} {c : Command} {base : Url} {place : AppPlace}
  (linked : Link.toBase s.baseUrl = .ok (.wire base)) (same : c.place? = some place)

include linked same

theorem unsent_fails (r : Request) (token : String) (addresses : Addresses server c r.path)
    (plain : Wire.notAscii? (r.headers.getD []) = none) (ours : Ours server files s.configPath token) (f : Failure)
    (unsent : Unsent server base (r.authorized token) f) : Fails server files s c f := by
  cases unsent with
  | address fault bad => exact .inr (.address base r.path fault linked addresses bad)
  | header text found =>
      obtain ⟨rfl, high⟩ := bearer_high r token text plain found
      exact .inr (.token place same token ours high)
  | unanswered f unanswered => exact unanswered_fails (Command.place_online c place same).1 f unanswered

theorem uncalled_fails (r : Request) (addresses : Addresses server c r.path)
    (plain : Wire.notAscii? (r.headers.getD []) = none) (f : Failure)
    (uncalled : Session.Uncalled server base (Ours server files s.configPath) (Unreached s.configPath) r f) :
    Fails server files s c f := by
  cases uncalled with
  | usual f usual => exact .inl usual
  | sent token ours f unsent => exact unsent_fails linked same r token addresses plain ours f unsent
  | renewed token ours f unsent =>
      exact unsent_fails linked same Session.renewalRequest token (.renewal place same) rfl ours f unsent
  | unsaved f failed => exact unreached_fails (Command.place_online c place same).2.2 f failed

variable (send : Sender) (sends : Sends server files s base send)

include sends

omit linked same in
-- What an operation comes to is its complaint, unless the user interrupts it.
theorem operation_ends (site : Hosting.Site) (i : Nat) (op : Hosting.Operation) :
    Ends (During server files s.configPath) Any (Fails server files s c) (op.work site send i) := by
  have sent : ∀ r, Ends (During server files s.configPath) Any Any (send r) :=
    fun r => ends_weaken _ (sends r) (fun _ _ => trivial) fun _ _ => trivial
  have told : ∀ request expected text, Ends (During server files s.configPath) Any Any
      ((Endpoint.done request expected text).call send) :=
    fun request expected text => ends_bind _ _ (sent _) fun _ _ => ends_except id _ (fun _ _ => trivial) fun _ _ => trivial
  have carried : Ends (During server files s.configPath) Any Any (op.effect.perform site send) := by
    cases op.effect with
    | upload a =>
        refine ends_bind _ _ (ends_weaken _ (load_ends _) (fun _ fine => fine) fun _ _ => trivial) ?_
        intro body (_ : Any body)
        exact ends_bind _ _ (mark_ends (during_sees server files s.configPath)) fun boundary _ => told _ _ _
    | delete path => exact told _ _ _
    | setAttributes path attrs => exact told _ _ _
    | nothing => exact ends_pure () trivial
  refine ends_bind _ _ (ends_outcome _ carried) (fun outcome _ => ?_)
  split
  · exact ends_bind _ _ (record_ends (during_sees server files s.configPath) _ _ _) fun _ _ => ends_pure _ trivial
  · exact ends_throw _ (.inl .interrupted)
  · exact ends_pure _ trivial

theorem asked_ends (r : Request) (addresses : Addresses server c r.path)
    (plain : Wire.notAscii? (r.headers.getD []) = none) :
    Ends (During server files s.configPath) (Given server) (Fails server files s c) (send r) :=
  ends_weaken _ (sends r) (fun _ fine => fine) (uncalled_fails linked same r addresses plain)

theorem located_ends : Ends (During server files s.configPath) (Resolved server place) (Fails server files s c)
    (resolveApp send place) :=
  resolve_ends send (fun _ => .inl) (during_sees server files s.configPath) place
    (asked_ends linked same send sends _ (.apps place same) rfl)

theorem told_ends (request : Request) (expected : Nat) (text : String) (addresses : Addresses server c request.path)
    (plain : Wire.notAscii? (request.headers.getD []) = none) :
    Ends (During server files s.configPath) Any (Fails server files s c)
      ((Endpoint.done request expected text).call send) :=
  done_ends send (fun _ => .inl) request expected text (asked_ends linked same send sends request addresses plain)

end

end CommandLine

end HostingAdmin
