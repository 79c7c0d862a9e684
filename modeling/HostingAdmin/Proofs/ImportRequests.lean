import Mathlib.Data.List.Perm.Subperm
import HostingAdmin.Proofs.CallTraffic
import HostingAdmin.Proofs.CommandSteps
import HostingAdmin.Proofs.ImportAccounts
import HostingAdmin.Proofs.WorkerFailures

set_option autoImplicit false

namespace HostingAdmin

-- What calls send, one after the other, on top of what was sent before.
inductive Calls (base : Url) (server : Server) (before : List Exchange) : List Request → List Exchange → Prop where
  | nothing : Calls base server before [] before
  | call (rs : List Request) (r : Request) (reached sent : List Exchange)
      (earlier : Calls base server before rs reached) (traffic : Traffic base server r reached sent) :
      Calls base server before (rs ++ [r]) (sent ++ reached)

theorem calls_chain (base : Url) (server : Server) (first second third : List Exchange) (rs ss : List Request)
    (before : Calls base server first rs second) (after : Calls base server second ss third) :
    Calls base server first (rs ++ ss) third := by
  induction after with
  | nothing =>
      rw [List.append_nil]
      exact before
  | call ss s reached sent _ traffic ih =>
      rw [← List.append_assoc]
      exact .call (rs ++ ss) s reached sent ih traffic

namespace Action

variable {α β : Type}

-- An action asks the server for requests that `K` allows, in that order and below a base.
def Asks (base : Url) (K : List Request → Prop) (a : Action α) : Prop :=
  ∀ w, (a.perform w).2.server = w.server ∧ ∃ rs, Calls base w.server w.exchanges rs (a.perform w).2.exchanges ∧ K rs

-- What an action may result in.
def Gives (a : Action α) (x : α) : Prop := ∃ w v, a.perform w = (.ok x, v)

section

variable {base : Url} {K L M : List Request → Prop}

theorem asks_silent (a : Action α) (silent : Within Silent a) (none : K []) : Asks base K a := by
  intro w
  obtain ⟨exchanges, server⟩ := silent w
  exact ⟨server, [], exchanges ▸ .nothing, none⟩

theorem asks_bind (a : Action α) (k : α → Action β) (first : Asks base K a) (after : ∀ x, Gives a x → Asks base L (k x))
    (alone : ∀ rs, K rs → M rs) (both : ∀ rs ss, K rs → L ss → M (rs ++ ss)) : Asks base M (a >>= k) := by
  intro w
  obtain ⟨server, rs, calls, allowed⟩ := first w
  rw [perform_bind]
  rcases performed : a.perform w with ⟨f | x, v⟩
  · rw [performed] at server calls
    exact ⟨server, rs, calls, alone rs allowed⟩
  · rw [performed] at server calls
    obtain ⟨same, ss, more, others⟩ := after x ⟨w, v, performed⟩ v
    rw [server] at more
    exact ⟨same.trans server, rs ++ ss, calls_chain _ _ _ _ _ rs ss calls more, both rs ss allowed others⟩

theorem asks_weaken (a : Action α) (inside : Asks base K a) (allows : ∀ rs, K rs → L rs) : Asks base L a := by
  intro w
  obtain ⟨server, rs, calls, allowed⟩ := inside w
  exact ⟨server, rs, calls, allows rs allowed⟩

theorem silent_asks (a : Action α) (k : α → Action β) (silent : Within Silent a)
    (after : ∀ x, Gives a x → Asks base K (k x)) (none : K []) : Asks base K (a >>= k) := by
  refine asks_bind a k (asks_silent (K := (· = [])) a silent rfl) after ?_ ?_
  · rintro rs rfl
    exact none
  · rintro rs ss rfl others
    exact others

theorem asks_silently (a : Action α) (k : α → Action β) (first : Asks base K a) (after : ∀ x, Within Silent (k x)) :
    Asks base K (a >>= k) := by
  refine asks_bind a k first (fun x _ => asks_silent (K := (· = [])) _ (after x) rfl) (fun _ allowed => allowed) ?_
  rintro rs ss allowed rfl
  rw [List.append_nil]
  exact allowed

end

-- Requests that change nothing on the server.
def Harmless (rs : List Request) : Prop := ∀ r ∈ rs, r.method = "GET"

theorem harmless_none : Harmless [] := fun _ member => by cases member

theorem harmless_bind (base : Url) (a : Action α) (k : α → Action β) (first : Asks base Harmless a)
    (after : ∀ x, Gives a x → Asks base Harmless (k x)) : Asks base Harmless (a >>= k) := by
  refine asks_bind a k first after (fun _ harmless => harmless) ?_
  intro rs ss harmless others r member
  rcases List.mem_append.mp member with early | late
  · exact harmless r early
  · exact others r late

section

variable {R : World → World → Prop} (passage : Passage R) (writes : ∀ w files, R w { w with files })

include passage writes

theorem save_within (p : Path) (x : Profile) : Within R (Profile.save p x) :=
  within_bind passage _ _ (within_change passage writes p.parent _) fun _ =>
    within_bind passage _ _ (within_store passage writes p _) fun _ => within_record passage _ _ _

theorem stow_within (c : Cache) (p : Path) : Within R (c.save p) :=
  within_bind passage _ _ (within_change passage writes p.parent _) fun _ =>
    within_bind passage _ _ (within_store passage writes p _) fun _ => within_pure passage _

end

theorem save_silent (p : Path) (x : Profile) : Within Silent (Profile.save p x) :=
  save_within silent_passage (fun _ _ => ⟨rfl, rfl⟩) p x

end Action

open HostingAdmin.Action

theorem send_asks (base : Url) (cfg : Path) (r : Request) :
    Asks base (· = [r]) (Session.Channel.send ⟨.wire base, Profile.save cfg⟩ r) := by
  intro w
  obtain ⟨sent, exchanges, server, traffic⟩ := Session.send_traffic base (Profile.save cfg) (save_silent cfg) r w
  refine ⟨server, [r], ?_, rfl⟩
  rw [exchanges]
  exact .call [] r _ sent .nothing traffic

-- What a session adds for a request is the request itself, under the base, and what
-- renews the session.
theorem send_adds (P : Exchange → Prop) (base : Url) (cfg : Path) (r : Request)
    (fits : ∀ q sent, Session.Seeks r q → Wire.build base Exchange.client q = .ok sent → P (.sent sent)) :
    Action.Within (Adds P) (Session.Channel.send ⟨.wire base, Profile.save cfg⟩ r) := by
  have passage := adds_passage P
  refine Session.send_seeks passage (fun w _ _ => adds_kept P w _ rfl) _
    (fun p => Action.save_within passage (fun w _ => adds_kept P w _ rfl) cfg p) r ?_
  intro q among
  refine Action.within_wire passage base q (fun w sent built => ⟨[.sent sent], rfl, ?_⟩)
  simpa using fits q sent among built

theorem call_asks {α : Type} (base : Url) (send : Sender) (sends : ∀ r, Asks base (· = [r]) (send r)) (e : Endpoint α) :
    Asks base (· = [e.request]) (e.call send) :=
  asks_silently _ _ (sends e.request) fun r => within_except silent_passage id (e.read r)

namespace Hosting

-- The one request that an operation may take: it is about the path of the operation.
inductive Operation.Carries (site : Site) : Operation → Request → Prop where
  | add (a : Asset) (body : Bytes) (boundary : String) :
      Carries site (.add a) (Hosting.upload site.group { a with appId := site.app } body boundary).request
  | delete (a : Asset) : Carries site (.delete a) (Hosting.delete site.group site.app a.path).request
  | replace (m : Modification) (body : Bytes) (boundary : String) :
      Carries site (.modify m) (Hosting.upload site.group { m.asset with appId := site.app } body boundary).request
  | change (m : Modification) :
      Carries site (.modify m) (Hosting.setAttributes site.group site.app m.asset.path m.asset.attrs).request

-- The request to forget what is cached.
def resetRequest (site : Site) : Request := (invalidateCache site.group site.app allPaths).request

-- Each operation is charged with one request at most, and only a wished reset is added.
def Charges (site : Site) (ops : List Operation) (resetCache : Bool) (rs : List Request) : Prop :=
  ∃ (parts : List (Operation × Request)) (resets : List Request), rs = parts.map Prod.snd ++ resets ∧
    (parts.map Prod.fst).Subperm ops ∧ (∀ x ∈ parts, x.1.Carries site x.2) ∧
    (resets = [] ∨ resetCache = true ∧ resets = [resetRequest site])

def Share (site : Site) (op : Operation) (rs : List Request) : Prop :=
  rs = [] ∨ ∃ r, rs = [r] ∧ op.Carries site r

section

variable (base : Url) (site : Site) (send : Sender) (sends : ∀ r, Asks base (· = [r]) (send r))

include sends

theorem upload_share (op : Operation) (a : Asset) (carries : ∀ body boundary,
    op.Carries site (Hosting.upload site.group { a with appId := site.app } body boundary).request) :
    Asks base (Share site op) (Operation.upload site send a) := by
  refine silent_asks _ _ (within_load silent_passage _) (fun body _ => ?_) (.inl rfl)
  refine silent_asks _ _ (within_mark silent_passage) (fun boundary _ => ?_) (.inl rfl)
  refine asks_weaken _ (call_asks base send sends _) ?_
  rintro rs rfl
  exact .inr ⟨_, rfl, carries body boundary⟩

theorem effect_share (op : Operation) : Asks base (Share site op) (op.effect.perform site send) := by
  have asked : ∀ e : Endpoint Unit, op.Carries site e.request → Asks base (Share site op) (e.call send) := by
    intro e carries
    refine asks_weaken _ (call_asks base send sends e) ?_
    rintro rs rfl
    exact .inr ⟨_, rfl, carries⟩
  cases op with
  | add a => exact upload_share base site send sends _ a fun body boundary => .add a body boundary
  | delete a => exact asked _ (.delete a)
  | modify m =>
      rw [Operation.effect]
      split
      · exact upload_share base site send sends _ m.asset fun body boundary => .replace m body boundary
      · split
        · exact asked _ (.change m)
        · exact asks_silent _ (within_pure silent_passage ()) (.inl rfl)

theorem work_share (op : Operation) (i : Nat) : Asks base (Share site op) (op.work site send i) := by
  have tried : Asks base (Share site op) (outcome (op.effect.perform site send)) := effect_share base site send sends op
  refine asks_silently _ _ tried (fun result => ?_)
  split
  · exact within_bind silent_passage _ _ (within_record silent_passage _ _ _) fun _ => within_pure silent_passage _
  · exact within_throw silent_passage _
  · exact within_pure silent_passage _

theorem forget_asks (workers : Int) : Asks base (fun rs => rs = [] ∨ rs = [resetRequest site])
    (outcome (forget site send workers allPaths)) := by
  refine silent_asks _ _ (within_record silent_passage _ _ _) (fun _ _ => ?_) (.inl rfl)
  exact asks_weaken _ (call_asks base send sends _) fun rs same => .inr same

end

-- What has been asked for so far in view of the operations that are finished.
structure Tab (site : Site) (resetCache : Bool) (b : Batch Operation) (rs : List Request) : Prop where
  wished : b.resetCache = resetCache
  charged : ∃ (parts : List (Operation × Request)) (resets : List Request), rs = parts.map Prod.snd ++ resets ∧
    (parts.map Prod.fst).Sublist (b.pool.finished.map Prod.fst) ∧ (∀ x ∈ parts, x.1.Carries site x.2) ∧
    (resets = [] ∨ resetCache = true ∧ resets = [resetRequest site]) ∧
    ((∀ e, b.stage ≠ .ended e) → resets = [])

open Batch in
theorem finished_planned (n : Nat) (ops : List Operation) (b : Batch Operation) (account : Account n ops b) :
    (b.pool.finished.map Prod.fst ++ b.pool.busy).Subperm ops := by
  obtain ⟨ahead, marks, _, whole, _⟩ := account.tally.line
  have taken : b.pool.taken.Sublist ops := whole ▸ List.sublist_append_left _ _
  exact account.tally.accounted.subperm.trans taken.subperm

open Batch in
theorem tab_charges (site : Site) (n : Nat) (ops : List Operation) (resetCache : Bool) (b : Batch Operation)
    (rs : List Request) (account : Account n ops b) (tab : Tab site resetCache b rs) :
    Charges site ops resetCache rs := by
  obtain ⟨parts, resets, same, sub, carries, reset, _⟩ := tab.charged
  refine ⟨parts, resets, same, ?_, carries, reset⟩
  have done : (b.pool.finished.map Prod.fst).Subperm ops :=
    (List.sublist_append_left _ _).subperm.trans (finished_planned n ops b account)
  exact sub.subperm.trans done

open Batch in
theorem busy_planned (n : Nat) (ops : List Operation) (b : Batch Operation) (account : Account n ops b) (i : Nat)
    (op : Operation) (atWork : b.pool.workers[i]? = some (.busy op)) :
    (b.pool.finished.map Prod.fst ++ [op]).Subperm ops := by
  have busy : op ∈ b.pool.busy := List.mem_filterMap.mpr ⟨.busy op, List.mem_of_getElem? atWork, rfl⟩
  have one : [op].Sublist b.pool.busy := List.singleton_sublist.mpr busy
  exact (List.Sublist.append_left one _).subperm.trans (finished_planned n ops b account)

open Batch in
theorem step_finished (b c : Batch Operation) (m : Batch.Move) (scheduled : Trade.Scheduled b (.move m))
    (moved : b.step m = some c) : c.pool.finished = b.pool.finished := by
  cases m with
  | put =>
      simp only [step, put] at moved
      split at moved
      · obtain ⟨p, putEq, rfl⟩ := Option.map_eq_some_iff.mp moved
        obtain ⟨_, _, _, _, rfl⟩ := Pool.pool_put_cases b.pool p putEq
        rfl
      · cases moved
  | take i =>
      obtain ⟨p, takeEq, rfl⟩ := Option.map_eq_some_iff.mp moved
      obtain ⟨_, _, ⟨_, rfl⟩ | ⟨_, _, rfl⟩⟩ := Pool.pool_take_cases b.pool p i takeEq
      all_goals rfl
  | finish i complaint => exact scheduled.elim
  | answer outcome => exact scheduled.elim
  | collect =>
      simp only [step, collect] at moved
      split at moved <;> cases moved <;> rfl
  | join =>
      simp only [step, join] at moved
      split at moved
      · split at moved <;> cases moved
        rfl
      · cases moved
  | conclude =>
      simp only [step, conclude] at moved
      split at moved
      · split at moved
        · cases moved
          rfl
        · split at moved <;> cases moved <;> rfl
      · cases moved

open Batch in
theorem move_silent (site : Site) (send : Sender) (workers : Int) (b : Batch Operation) (m : Batch.Move) :
    Within Silent ((importTrade site send workers).advance b (.move m)) := by
  by_cases collecting : m = .collect
  · subst collecting
    refine within_bind silent_passage _ _ ?_ fun _ => within_pure silent_passage _
    rw [Trade.tell]
    split
    · exact within_bind silent_passage _ _ (within_record silent_passage _ _ _)
        fun _ => within_modify _ fun v => ⟨rfl, rfl⟩
    · exact within_pure silent_passage ()
  · rw [Trade.advance_other _ b m collecting]
    exact within_pure silent_passage _

-- Requests so far, the world they led to, and what the batch came to.
structure Billed (base : Url) (site : Site) (ops : List Operation) (resetCache : Bool) (rs : List Request) (w : World)
    (result : Except Failure (Option (Batch Operation))) (v : World) : Prop where
  server : v.server = w.server
  billed : ∃ ss, Calls base w.server w.exchanges ss v.exchanges ∧ Charges site ops resetCache (rs ++ ss) ∧
    ∀ c, result = .ok (some c) → Tab site resetCache c (rs ++ ss)

section

variable (base : Url) (site : Site) (send : Sender) (sends : ∀ r, Asks base (· = [r]) (send r)) (workers : Int)
  (n : Nat) (ops : List Operation) (resetCache : Bool)

include sends

open Batch in
theorem work_billed (b : Batch Operation) (rs : List Request) (account : Account n ops b)
    (tab : Tab site resetCache b rs) (running : ∀ e, b.stage ≠ .ended e) (i : Nat) (op : Operation)
    (atWork : b.pool.workers[i]? = some (.busy op)) (w : World) :
    Billed base site ops resetCache rs w (((importTrade site send workers).advance b (.work i op)).perform w).1
      (((importTrade site send workers).advance b (.work i op)).perform w).2 := by
  obtain ⟨parts, resets, same, sub, carries, _, calm⟩ := tab.charged
  obtain rfl := calm running
  obtain ⟨server, ss, calls, share⟩ := work_share base site send sends op i w
  have more : ∃ extra : List (Operation × Request), ss = extra.map Prod.snd ∧ (extra.map Prod.fst).Sublist [op] ∧
      ∀ x ∈ extra, x.1.Carries site x.2 := by
    rcases share with rfl | ⟨r, rfl, carried⟩
    · exact ⟨[], rfl, List.nil_sublist _, fun x member => by cases member⟩
    · refine ⟨[(op, r)], rfl, List.Sublist.refl _, fun x member => ?_⟩
      rw [List.mem_singleton.mp member]
      exact carried
  obtain ⟨extra, rfl, single, others⟩ := more
  have all : ∀ x ∈ parts ++ extra, x.1.Carries site x.2 := by
    intro x member
    rcases List.mem_append.mp member with early | late
    · exact carries x early
    · exact others x late
  have grown : ((parts ++ extra).map Prod.fst).Sublist (b.pool.finished.map Prod.fst ++ [op]) := by
    rw [List.map_append]
    exact sub.append single
  have together : rs ++ extra.map Prod.snd = (parts ++ extra).map Prod.snd ++ [] := by
    rw [same, List.append_nil, List.append_nil, List.map_append]
  have charged : Charges site ops resetCache (rs ++ extra.map Prod.snd) :=
    ⟨parts ++ extra, [], together, grown.subperm.trans (busy_planned n ops b account i op atWork), all, .inl rfl⟩
  rcases performed : (op.work site send i).perform w with ⟨f | complaint, v⟩
  · have advanced : ((importTrade site send workers).advance b (.work i op)).perform w = (.error f, v) := by
      simp only [Trade.advance, importTrade, Action.perform_bind, performed]
    rw [performed] at server calls
    rw [advanced]
    exact ⟨server, _, calls, charged, fun c impossible => by cases impossible⟩
  · have advanced : ((importTrade site send workers).advance b (.work i op)).perform w =
        (.ok (b.finish i complaint), v) := by
      simp only [Trade.advance, importTrade, Action.perform_bind, performed, Action.perform_pure]
    rw [performed] at server calls
    rw [advanced]
    refine ⟨server, _, calls, charged, fun c moved => ?_⟩
    obtain ⟨p, finishEq, rfl⟩ := Option.map_eq_some_iff.mp (Except.ok.inj moved)
    obtain ⟨job, found, rfl⟩ := Pool.pool_finish_cases b.pool p i _ finishEq
    rw [atWork] at found
    cases found
    have finished : (b.pool.finished ++ [(op, Pool.Verdict.ofComplaint complaint)]).map Prod.fst =
        b.pool.finished.map Prod.fst ++ [op] := List.map_append
    exact ⟨tab.wished, parts ++ extra, [], together, finished ▸ grown, all, .inl rfl, fun _ => rfl⟩

open Batch in
theorem forget_billed (b : Batch Operation) (rs : List Request) (account : Account n ops b)
    (tab : Tab site resetCache b rs) (clearing : b.stage = .clearing) (w : World) :
    Billed base site ops resetCache rs w (((importTrade site send workers).advance b .forget).perform w).1
      (((importTrade site send workers).advance b .forget).perform w).2 := by
  obtain ⟨parts, resets, same, sub, carries, _, calm⟩ := tab.charged
  obtain rfl := calm fun e ended => by simp [clearing] at ended
  rw [List.append_nil] at same
  subst same
  have staged := account.staged
  rw [clearing] at staged
  have wish : resetCache = true := tab.wished ▸ staged.2.2.1
  obtain ⟨server, ss, calls, asked⟩ := forget_asks base site send sends workers w
  have reset : ss = [] ∨ resetCache = true ∧ ss = [resetRequest site] := by
    rcases asked with rfl | rfl
    · exact .inl rfl
    · exact .inr ⟨wish, rfl⟩
  have done : (b.pool.finished.map Prod.fst).Subperm ops :=
    (List.sublist_append_left _ _).subperm.trans (finished_planned n ops b account)
  refine ⟨server, ss, calls, ⟨parts, ss, rfl, sub.subperm.trans done, carries, reset⟩, fun c moved => ?_⟩
  have moved : b.answer ((forget site send workers allPaths).perform w).1 = some c := Except.ok.inj moved
  unfold answer at moved
  split at moved
  · cases moved
    exact ⟨tab.wished, parts, ss, rfl, sub, carries, reset, fun running => (running _ rfl).elim⟩
  · cases moved
    exact ⟨tab.wished, parts, ss, rfl, sub, carries, reset, fun running => (running _ rfl).elim⟩
  · cases moved

omit sends in
open Batch in
theorem move_billed (b : Batch Operation) (rs : List Request) (account : Account n ops b)
    (tab : Tab site resetCache b rs) (running : ∀ e, b.stage ≠ .ended e) (m : Batch.Move)
    (scheduled : Trade.Scheduled b (.move m)) (w : World) :
    Billed base site ops resetCache rs w (((importTrade site send workers).advance b (.move m)).perform w).1
      (((importTrade site send workers).advance b (.move m)).perform w).2 := by
  have charged := tab_charges site n ops resetCache b rs account tab
  obtain ⟨parts, resets, same, sub, carries, reset, calm⟩ := tab.charged
  obtain rfl := calm running
  have kept : ∀ c, b.step m = some c → Tab site resetCache c rs := by
    intro c moved
    refine ⟨(step_frame b c m moved).1.trans tab.wished, parts, [], same, ?_, carries, .inl rfl, fun _ => rfl⟩
    rw [step_finished b c m scheduled moved]
    exact sub
  obtain ⟨exchanges, server⟩ := move_silent site send workers b m w
  refine ⟨server, [], exchanges ▸ .nothing, ?_, fun c moved => ?_⟩
  · rwa [List.append_nil]
  · rw [List.append_nil]
    exact kept c (Trade.move_step _ b c m w _ (Prod.ext moved rfl))

open Batch in
theorem drive_billed (positive : 1 ≤ n) (fuel : Nat) (b : Batch Operation) (rs : List Request)
    (account : Account n ops b) (tab : Tab site resetCache b rs) (w : World) :
    (((importTrade site send workers).drive fuel b).perform w).2.server = w.server ∧ ∃ ss,
      Calls base w.server w.exchanges ss (((importTrade site send workers).drive fuel b).perform w).2.exchanges ∧
      Charges site ops resetCache (rs ++ ss) := by
  induction fuel generalizing b rs w with
  | zero => exact ⟨rfl, [], .nothing, by rw [List.append_nil]; exact tab_charges site n ops resetCache b rs account tab⟩
  | succ fuel ih =>
      by_cases ended : ∃ e, b.stage = .ended e
      · obtain ⟨e, stageEq⟩ := ended
        rw [Trade.drive, ended_next_none n ops b e account stageEq]
        exact ⟨rfl, [], .nothing, by rw [List.append_nil]; exact tab_charges site n ops resetCache b rs account tab⟩
      · have running := not_exists.mp ended
        obtain ⟨task, nextEq, fits⟩ := next_exists n ops b positive account running
        have scheduled := Trade.next_scheduled b task nextEq
        have billed : Billed base site ops resetCache rs w
            (((importTrade site send workers).advance b task).perform w).1
            (((importTrade site send workers).advance b task).perform w).2 := by
          cases task with
          | work i op =>
              exact work_billed base site send sends workers n ops resetCache b rs account tab running i op scheduled w
          | forget => exact forget_billed base site send sends workers n ops resetCache b rs account tab scheduled w
          | move m => exact move_billed base site send workers n ops resetCache b rs account tab running m scheduled w
        have throws : (importTrade site send workers).Throws ops fun _ => True :=
          ⟨fun _ _ _ _ _ _ _ => trivial, fun _ _ _ _ _ => trivial⟩
        have planned : ∀ i op, task = .work i op → op ∈ ops := by
          intro i op same
          subst same
          exact Pool.job_planned n ops b.pool account.tally i op scheduled
        rw [Trade.drive, nextEq]
        rcases Trade.task_advances _ _ _ throws b task w fits planned with
          ⟨f, v, performed, _⟩ | ⟨c, v, m, performed, moved⟩
        · rw [performed] at billed
          obtain ⟨server, ss, calls, charges, _⟩ := billed
          simp only [Action.perform_bind, performed]
          exact ⟨server, ss, calls, charges⟩
        · rw [performed] at billed
          obtain ⟨server, ss, calls, _, next⟩ := billed
          obtain ⟨same, others, further, charges⟩ :=
            ih c (rs ++ ss) (step_account n ops b c m account moved) (next c rfl) v
          simp only [Action.perform_bind, performed]
          rw [server] at further
          refine ⟨same.trans server, ss ++ others, calls_chain _ _ _ _ _ ss others calls further, ?_⟩
          rwa [← List.append_assoc]

open Batch in
theorem import_charges (d : Diff) : Asks base (Charges site (Operation.ofDiff d) resetCache)
    (importAssets site d resetCache send workers) := by
  have none : Charges site (Operation.ofDiff d) resetCache [] :=
    ⟨[], [], rfl, List.nil_subperm, fun x member => (by cases member), .inl rfl⟩
  rw [importAssets]
  split
  · exact asks_silent _ (within_throw silent_passage _) none
  · rename_i enough
    have ran : Asks base (Charges site (Operation.ofDiff d) resetCache)
        ((importTrade site send workers).run workers.toNat (Operation.ofDiff d) resetCache) := by
      refine asks_silently _ _ ?_ (fun b => ?_)
      · intro w
        have tab : Tab site resetCache (Batch.start workers.toNat (Operation.ofDiff d) resetCache) [] :=
          ⟨rfl, [], [], rfl, List.nil_sublist _, fun x member => (by cases member), .inl rfl, fun _ => rfl⟩
        exact drive_billed base site send sends workers workers.toNat (Operation.ofDiff d) resetCache (by omega) _ _ []
          (start_account workers.toNat (Operation.ofDiff d) resetCache) tab w
      · split
        · exact within_pure silent_passage _
        · exact within_throw silent_passage _
    refine silent_asks _ _ (within_record silent_passage _ _ _) (fun _ _ => ?_) none
    refine asks_silently _ _ ran (fun e => ?_)
    split
    · exact within_record silent_passage _ _ _
    · exact within_bind silent_passage _ _ (within_record silent_passage _ _ _) fun _ => within_throw silent_passage _
    · exact within_throw silent_passage _

end

end Hosting

end HostingAdmin
