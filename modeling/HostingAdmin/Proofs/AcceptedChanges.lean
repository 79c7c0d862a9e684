import HostingAdmin.Proofs.AssetRequests
import HostingAdmin.Proofs.CallAnswers

set_option autoImplicit false

namespace HostingAdmin.Hosting

open HostingAdmin.Action Exchange

-- The server answers that it has done what it was asked for.
def isAccepted (server : Server) (before : List Exchange) (e : Exchange) : Bool :=
  match server before e with
  | .ok response => 200 ≤ response.status && response.status < 300
  | .error _ => false

section

variable (base : Url) (site : Site)

-- The changes that the server has accepted among the exchanges that were added to what
-- was there before, the earliest change first.
def accepted (server : Server) (before : List Exchange) : List Exchange → List Change
  | [] => []
  | e :: early =>
    accepted server before early ++
      if isAccepted server (early ++ before) e then (asked? base site e).toList else []

-- The changes that the server has accepted from one world to another.
def changes (w v : World) : List Change :=
  accepted base site w.server w.exchanges (v.exchanges.take (v.exchanges.length - w.exchanges.length))

-- Exchanges were added in which the server has accepted some changes.
def Accepts (w v : World) (cs : List Change) : Prop :=
  v.server = w.server ∧ ∃ sent, v.exchanges = sent ++ w.exchanges ∧ accepted base site w.server w.exchanges sent = cs

theorem accepts_changes (w v : World) (cs : List Change) (accepts : Accepts base site w v cs) :
    changes base site w v = cs := by
  obtain ⟨_, sent, added, same⟩ := accepts
  rw [changes, added, List.length_append, Nat.add_sub_cancel, List.take_left, same]

variable (server : Server) (before : List Exchange)

theorem accepted_append (late early : List Exchange) : accepted base site server before (late ++ early) =
    accepted base site server before early ++ accepted base site server (early ++ before) late := by
  induction late with
  | nil => rw [List.nil_append, accepted, List.append_nil]
  | cons e late ih => rw [List.cons_append, accepted, accepted, ih, List.append_assoc, List.append_assoc]

theorem accepted_none (sent : List Exchange) (nothing : ∀ e ∈ sent, asked? base site e = none) :
    accepted base site server before sent = [] := by
  induction sent with
  | nil => rfl
  | cons e early ih =>
      rw [accepted, ih fun x member => nothing x (List.mem_cons_of_mem _ member), nothing e List.mem_cons_self]
      simp

theorem silent_accepts (w v : World) (silent : Silent w v) : Accepts base site w v [] :=
  ⟨silent.2, [], silent.1, rfl⟩

theorem accepts_chain (u v w : World) (first second : List Change) (one : Accepts base site u v first)
    (two : Accepts base site v w second) : Accepts base site u w (first ++ second) := by
  obtain ⟨server, early, added, rfl⟩ := one
  obtain ⟨same, late, more, rfl⟩ := two
  refine ⟨same.trans server, late ++ early, ?_, ?_⟩
  · rw [more, added, List.append_assoc]
  · rw [accepted_append, server, added]

-- A call whose request asks for a change is accepted once at most: before it is sent
-- again, it was refused.
theorem traffic_accepted (r : Request) (change : Option Change)
    (own : ∀ e, Bears base r e → asked? base site e = change) (sent : List Exchange)
    (traffic : Traffic base server r before sent) :
    accepted base site server before sent = [] ∨ accepted base site server before sent = change.toList := by
  have once : ∀ early late e, (∀ x ∈ late ++ early, Renews base x) → Bears base r e →
      accepted base site server before (late ++ e :: early) =
        if isAccepted server (early ++ before) e then change.toList else [] := by
    intro early late e renewing bears
    have others : ∀ xs : List Exchange, (∀ x ∈ xs, x ∈ late ++ early) → ∀ x ∈ xs, asked? base site x = none :=
      fun xs inside x member => renewal_changes base site x (renewing x (inside x member))
    rw [accepted_append, accepted, accepted_none base site server before early
        (others early fun x member => List.mem_append_right _ member),
      accepted_none base site server _ late (others late fun x member => List.mem_append_left _ member), own e bears]
    simp
  cases traffic with
  | unsent early renewing =>
      exact .inl (accepted_none base site server before sent fun e member =>
        renewal_changes base site e (renewing e member))
  | once early late e renewing bears =>
      rw [once early late e renewing bears]
      split
      · exact .inr rfl
      · exact .inl rfl
  | twice early late e again renewing bears refused repeats =>
      obtain ⟨response, answered, unauthorized⟩ := refused
      have denied : isAccepted server (early ++ before) e = false := by
        simp [isAccepted, answered, unauthorized, Status.unauthorized]
      rw [List.cons_append, accepted, once early late e renewing bears, denied, own again repeats]
      simp only [Bool.false_eq_true, if_false, List.nil_append]
      split
      · exact .inr rfl
      · exact .inl rfl

theorem accepted_mem (sent early : List Exchange) (e : Exchange) (c : Change)
    (within : e :: (early ++ before) <:+ sent ++ before) (fine : isAccepted server (early ++ before) e = true)
    (asks : asked? base site e = some c) :
    c ∈ accepted base site server before sent := by
  obtain ⟨late, whole⟩ := within
  have split : sent = late ++ e :: early := by
    rw [← List.cons_append, ← List.append_assoc] at whole
    exact (List.append_cancel_right whole).symm
  rw [split, accepted_append, accepted, if_pos fine, asks]
  simp

end

section

variable (base : Url) (site : Site) (cfg : Path)

-- The way of a session below a base.
def session : Sender := Session.Channel.send ⟨.wire base, Profile.save cfg⟩

theorem session_accepts (r : Request) (change : Option Change) (own : ∀ e, Bears base r e → asked? base site e = change)
    (w : World) : Accepts base site w ((session base cfg r).perform w).2 [] ∨
      Accepts base site w ((session base cfg r).perform w).2 change.toList := by
  obtain ⟨sent, added, server, traffic⟩ := Session.send_traffic base (Profile.save cfg) (save_silent cfg) r w
  rcases traffic_accepted base site w.server w.exchanges r change own sent traffic with none | once
  · exact .inl ⟨server, sent, added, none⟩
  · exact .inr ⟨server, sent, added, once⟩

theorem call_accepts (request : Request) (text : String) (c : Change)
    (own : ∀ e, Bears base request e → asked? base site e = some c) (w v : World)
    (done : ((Endpoint.done request Status.noContent text).call (session base cfg)).perform w = (.ok (), v)) :
    Accepts base site w v [c] := by
  obtain ⟨response, u, sent, checked⟩ := bind_ok _ _ w v () done
  obtain ⟨token, wired, earlier, built, ⟨early, rfl⟩, last, given⟩ := Session.send_answered base (Profile.save cfg)
    (fun p => save_within grows_passage grows_writes cfg p) request w u response sent
  have made := session_accepts base site cfg request (some c) own w
  rw [show (session base cfg request).perform w = (.ok response, u) from sent] at made
  simp only [Endpoint.done, Rejection.check] at checked
  split at checked
  · rename_i fine
    cases checked
    rcases made with ⟨server, added, exchanges, nothing⟩ | once
    · have agreed : isAccepted w.server (early ++ w.exchanges) (.sent wired) = true := by
        simp [isAccepted, given, fine, Status.noContent]
      rw [show v.exchanges = added ++ w.exchanges from exchanges] at last
      have found := accepted_mem base site w.server w.exchanges added early (.sent wired) c last agreed
        (own _ ⟨token, wired, built, rfl⟩)
      rw [nothing] at found
      cases found
    · exact once
  · cases checked

-- An operation whose request can be read.
structure Operation.Readable (op : Operation) : Prop where
  hashed : ∀ a, op.effect = .upload a → a.hash ≠ ""
  short : ∀ a, op.effect = .upload a → Json.Short a.size

theorem effect_accepts (op : Operation) (readable : op.Readable) (w v : World)
    (done : (op.effect.perform site (session base cfg)).perform w = (.ok (), v)) :
    Accepts base site w v op.change?.toList := by
  rw [Operation.change?]
  cases effectEq : op.effect with
  | upload a =>
      rw [effectEq] at done
      obtain ⟨body, u, loaded, done⟩ := bind_ok _ _ w v () done
      obtain ⟨boundary, x, marked, done⟩ := bind_ok _ _ u v () done
      have first := within_load silent_passage (site.root.join (relative a.path)) w
      have second := within_mark silent_passage u
      rw [loaded] at first
      rw [marked] at second
      have called := call_accepts base site cfg _ _ (.put a.path a.hash a.attrs)
        (fun e => upload_asks base site e a body boundary (readable.hashed a effectEq) (readable.short a effectEq))
        x v done
      exact accepts_chain base site w x v [] _ (silent_accepts base site w x (silent_passage.chain w u x first second))
        called
  | delete path =>
      rw [effectEq] at done
      exact call_accepts base site cfg _ _ (.delete path) (fun e => delete_asks base site e path) w v done
  | setAttributes path attrs =>
      rw [effectEq] at done
      exact call_accepts base site cfg _ _ (.patch path attrs) (fun e => patch_asks base site e path attrs) w v done
  | nothing =>
      rw [effectEq] at done
      cases done
      exact silent_accepts base site w w (silent_passage.stay w)

theorem work_accepts (op : Operation) (readable : op.Readable) (i : Nat) (w v : World)
    (worked : (op.work site (session base cfg) i).perform w = (.ok none, v)) :
    Accepts base site w v op.change?.toList := by
  obtain ⟨result, u, tried, worked⟩ := bind_ok _ _ w v _ worked
  rw [perform_outcome] at tried
  cases result with
  | error f =>
      cases f <;> cases worked
  | ok x =>
      have performed : (op.effect.perform site (session base cfg)).perform w = (.ok (), u) := by
        obtain ⟨same, world⟩ := Prod.mk.inj tried
        rw [← world, ← Except.ok.inj same]
      obtain ⟨⟨⟩, y, recorded, ended⟩ := bind_ok _ _ u v _ worked
      cases ended
      have quiet := within_record silent_passage .debug "Asset operation done"
        [("worker", .int i), ("op", .str op.name), ("asset", .str op.path)] u
      rw [recorded] at quiet
      have done := accepts_chain base site w u v _ [] (effect_accepts base site cfg op readable w u performed)
        (silent_accepts base site u v quiet)
      rwa [List.append_nil] at done

theorem nothing_passage : Passage fun w v => Accepts base site w v [] where
  stay w := silent_accepts base site w w (silent_passage.stay w)
  chain u v w first second := accepts_chain base site u v w [] [] first second
  book w marks log := silent_accepts base site w _ (silent_passage.book w marks log)

theorem forget_accepts (workers : Int) (w : World) :
    Accepts base site w ((outcome (forget site (session base cfg) workers allPaths)).perform w).2 [] := by
  have passage := nothing_passage base site
  have asked : Within (fun w v => Accepts base site w v []) (session base cfg (resetRequest site)) := fun w =>
    (session_accepts base site cfg (resetRequest site) none (fun e => reset_asks base site e) w).elim id id
  exact within_bind passage _ _ (within_record passage _ _ _)
    (fun _ => within_call passage (session base cfg) (invalidateCache site.group site.app allPaths) asked) w

section

variable (n : Nat) (ops : List Operation) (readable : ∀ op ∈ ops, op.Readable) (resetCache : Bool)

include readable

open Batch in
theorem advance_accepts (b c : Batch Operation) (account : Account n ops b) (task : Batch.Task Operation)
    (scheduled : Trade.Scheduled b task) (w v : World)
    (done : ((importTrade site (session base cfg) n).advance b task).perform w = (.ok (some c), v))
    (fine : ∀ x ∈ c.pool.finished, x.2.complaint? = none) :
    ∃ more, c.pool.finished = b.pool.finished ++ more ∧
      Accepts base site w v ((more.map Prod.fst).filterMap Operation.change?) := by
  cases task with
  | work i op =>
      obtain ⟨complaint, u, worked, finished⟩ := bind_ok _ _ w v _ done
      obtain ⟨moved, rfl⟩ : b.finish i complaint = some c ∧ u = v := by simpa using finished
      obtain ⟨p, finishEq, rfl⟩ := Option.map_eq_some_iff.mp moved
      obtain ⟨job, found, rfl⟩ := Pool.pool_finish_cases b.pool p i _ finishEq
      have atWork : b.pool.workers[i]? = some (.busy op) := scheduled
      rw [atWork] at found
      cases found
      have last := fine (op, Pool.Verdict.ofComplaint complaint) (by simp)
      cases complaint with
      | some complaint => cases last
      | none =>
          have planned := Pool.job_planned n ops b.pool account.tally i op atWork
          have made := work_accepts base site cfg op (readable op planned) i w u worked
          refine ⟨[(op, .done)], rfl, ?_⟩
          cases asked : op.change? <;> simpa [asked] using made
  | forget =>
      obtain ⟨result, u, asked, answered⟩ := bind_ok _ _ w v _ done
      obtain ⟨moved, rfl⟩ : b.answer result = some c ∧ u = v := by simpa using answered
      have nothing := forget_accepts base site cfg n w
      rw [show (outcome (forget site (session base cfg) n allPaths)).perform w = (.ok result, u) from asked] at nothing
      refine ⟨[], ?_, nothing⟩
      unfold answer at moved
      split at moved <;> cases moved <;> simp
  | move m =>
      have quiet := move_silent site (session base cfg) n b m w
      rw [done] at quiet
      refine ⟨[], ?_, silent_accepts base site w v quiet⟩
      rw [step_finished b c m scheduled (Trade.move_step _ b c m w v done), List.append_nil]

-- What the operations that are finished were there for is what the server has accepted.
open Batch in
theorem course_accepts (b : Batch Operation) (w v : World)
    (course : Trade.Course (importTrade site (session base cfg) n) (start n ops resetCache) w b v)
    (fine : ∀ x ∈ b.pool.finished, x.2.complaint? = none) :
    Accepts base site w v ((b.pool.finished.map Prod.fst).filterMap Operation.change?) := by
  induction course with
  | rest => exact silent_accepts base site w w (silent_passage.stay w)
  | go c d u v task earlier scheduled done ih =>
      have account := run_account n ops resetCache c (Trade.course_run _ _ c w u earlier)
      obtain ⟨more, finished, made⟩ :=
        advance_accepts base site cfg n ops readable c d account task scheduled u v done fine
      rw [finished] at fine ⊢
      have before := ih fun x member => fine x (List.mem_append_left _ member)
      rw [List.map_append, List.filterMap_append]
      exact accepts_chain base site w u v _ _ before made

end

end

end HostingAdmin.Hosting
