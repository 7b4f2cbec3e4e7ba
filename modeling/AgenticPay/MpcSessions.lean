import AgenticPay.MpcSteps

/-!
# Signing sessions

What holds of every session that is stored, whatever happens to its status; and when its status is
for good. It is tested before a signing and written after it, and nothing keeps other contributions
or the time from ending the session in between.
-/
namespace Mpc

open Shamir Awaits Transaction

variable {p : Primitives} {env : Env} {s s' : State} {sessionId : SessionId} {nodeId : NodeId}
  {session session' : SigningSession} {node : MpcNode} {signature : Bytes} {x : Call} {task : Task}
  {t : Turn Task (Except String Result)} {g : Config State Task} {a : Act Call Env}

/-- Two records of a session that differ in how far it has come. -/
structure Same (session session' : SigningSession) : Prop where
  keyId : session'.keyId = session.keyId
  payload : session'.payload = session.payload
  quorum : session'.quorum = session.quorum
  contributions : session'.contributions = session.contributions

theorem same_maybeExpire (env : Env) (session : SigningSession) :
    Same session (maybeExpire env session) := by
  rw [maybeExpire]
  split
  · exact ⟨rfl, rfl, rfl, rfl⟩
  · exact ⟨rfl, rfl, rfl, rfl⟩

/-- A property of the sessions that new ones have, and that contributions keep. -/
structure Kept (p : Primitives) (R : SessionId → SigningSession → Prop) : Prop where
  fresh : ∀ {env : Env} {s : State} {keyId key payload timeoutMs} sessionId,
    s.keys keyId = some key →
      R sessionId (newSession env keyId key payload timeoutMs)
  same : ∀ {sessionId session session'}, R sessionId session → Same session session' →
    R sessionId session'
  contributed : ∀ {s : State} {sessionId nodeId signature session node tracker},
    Contributes s sessionId nodeId session node →
      approval p s sessionId nodeId signature session node = .ok (.ok tracker) →
        R sessionId session → R sessionId (contributed session nodeId signature node)

def All (R : SessionId → SigningSession → Prop) (s : State) : Prop :=
  ∀ sessionId session, s.sessions sessionId = some session → R sessionId session

variable {R : SessionId → SigningSession → Prop}

theorem All.update (h : All R s)
    (hs : s'.sessions = Function.update s.sessions sessionId (some session))
    (hnew : R sessionId session) : All R s' := by
  intro id found hfound
  rw [hs] at hfound
  by_cases he : id = sessionId
  · subst he
    rw [Function.update_self] at hfound
    rwa [← Option.some.inj hfound]
  · rw [Function.update_of_ne he] at hfound
    exact h id found hfound

theorem Called.all (h : Called p env s x t s') (hk : Kept p R) (hall : All R s) : All R s' := by
  cases h with
  | quiet same =>
    intro id found hfound
    exact hall id found (congrFun same.sessions id ▸ hfound)
  | started _ hkey _ => exact hall.update rfl (hk.fresh _ hkey)
  | looked hfound => exact hall.update rfl (hk.same (hall _ _ hfound) (same_maybeExpire _ _))
  | rejected hcontributes _ =>
    exact hall.update rfl (hk.same (hall _ _ hcontributes.found) ⟨rfl, rfl, rfl, rfl⟩)
  | approved hcontributes hrecorded =>
    exact hall.update rfl (hk.contributed hcontributes hrecorded (hall _ _ hcontributes.found))
  | completed hcontributes hrecorded _ _ =>
    exact hall.update rfl (hk.contributed hcontributes hrecorded (hall _ _ hcontributes.found))
  | made => exact hall
  | rotated => exact hall
  | adding => exact hall
  | removing => exact hall
  | revoked => exact hall

theorem Resumed.all (h : Resumed p env s task t s') (hk : Kept p R) (hall : All R s) :
    All R s' := by
  cases h with
  | signed hsession _ =>
    exact hall.update rfl (hk.same (hall _ _ hsession) ⟨rfl, rfl, rfl, rfl⟩)
  | caught hsession =>
    exact hall.update rfl (hk.same (hall _ _ hsession) ⟨rfl, rfl, rfl, rfl⟩)
  | refreshed hsession =>
    exact hall.update rfl (hk.same (hall _ _ hsession) (same_maybeExpire _ _))
  | _ => exact hall

theorem all_run (hk : Kept p R) (hall : All R g.state) (acts : List (Act Call Env)) :
    All R (run (machine (coordinator p)) g acts).state := by
  apply run_preserves (I := fun g : Config State Task => All R g.state) _ hall
  intro g a hall
  obtain hmoves | he := commit_moves (coordinator p) g a
  · generalize commit (machine (coordinator p)) g a = g' at hmoves
    cases hmoves with
    | called hcalled => exact (called_of_call hcalled).all hk hall
    | resumed _ hresumed => exact (resumed_of_resume hresumed).all hk hall
  · rwa [he]

/-! ## Sessions stay -/

/-- A later record of a session. -/
structure Continues (session session' : SigningSession) : Prop where
  keyId : session'.keyId = session.keyId
  payload : session'.payload = session.payload
  contributions : session.contributions <+: session'.contributions

theorem Same.continues (h : Same session session') : Continues session session' :=
  ⟨h.keyId, h.payload, by rw [h.contributions]⟩

theorem contributed_continues :
    Continues session (contributed session nodeId signature node) where
  keyId := contributed_keyId
  payload := contributed_payload
  contributions := by
    rw [contributed, addContribution]
    split
    · exact List.prefix_refl _
    · exact List.prefix_append _ _

/-- Sessions stay, and so do their contributions. -/
def Grows (s s' : State) : Prop :=
  ∀ sessionId session, s.sessions sessionId = some session →
    ∃ session', s'.sessions sessionId = some session' ∧ Continues session session'

theorem Grows.same (h : s'.sessions = s.sessions) : Grows s s' :=
  fun sessionId session hsession =>
    ⟨session, (congrFun h sessionId).trans hsession, ⟨rfl, rfl, List.prefix_refl _⟩⟩

theorem Grows.update (hold : s.sessions sessionId = some session)
    (hs : s'.sessions = Function.update s.sessions sessionId (some session'))
    (hcontinues : Continues session session') : Grows s s' := by
  intro id found hfound
  by_cases he : id = sessionId
  · subst he
    obtain rfl := Option.some.inj (hold.symm.trans hfound)
    exact ⟨session', by rw [hs, Function.update_self], hcontinues⟩
  · exact ⟨found, by rw [hs, Function.update_of_ne he, hfound], rfl, rfl, List.prefix_refl _⟩

theorem Called.grows (h : Called p env s x t s') : Grows s s' := by
  cases h with
  | quiet same => exact .same same.sessions
  | @started id _ _ _ _ _ hunused _ _ =>
    intro id' found hfound
    have hne : id' ≠ id := by
      rintro rfl
      rw [hunused] at hfound
      contradiction
    exact ⟨found, (Function.update_of_ne hne _ _).trans hfound, rfl, rfl, List.prefix_refl _⟩
  | looked hfound => exact .update hfound rfl (same_maybeExpire ..).continues
  | rejected hcontributes _ => exact .update hcontributes.found rfl ⟨rfl, rfl, List.prefix_refl _⟩
  | approved hcontributes _ => exact .update hcontributes.found rfl contributed_continues
  | completed hcontributes _ _ _ => exact .update hcontributes.found rfl contributed_continues
  | made => exact .same rfl
  | rotated => exact .same rfl
  | adding => exact .same rfl
  | removing => exact .same rfl
  | revoked => exact .same rfl

theorem Resumed.grows (h : Resumed p env s task t s') : Grows s s' := by
  cases h with
  | signed hsession _ => exact .update hsession rfl ⟨rfl, rfl, List.prefix_refl _⟩
  | caught hsession => exact .update hsession rfl ⟨rfl, rfl, List.prefix_refl _⟩
  | refreshed hsession => exact .update hsession rfl (same_maybeExpire ..).continues
  | _ => exact .same rfl

/-! ## Final statuses -/

def Final (status : SessionStatus) : Prop :=
  status = .signed ∨ status = .rejected ∨ status = .expired

theorem Final.ne_pending {status : SessionStatus} (h : Final status) : status ≠ .pending := by
  rintro rfl
  obtain h | h | h := h <;> contradiction

/-- A final status is never left once entered. -/
def FinalForGood (p : Primitives) (g : Config State Task) (acts : List (Act Call Env)) : Prop :=
  ∀ pre a sessionId session, pre ++ [a] <+: acts →
    (run (machine (coordinator p)) g pre).state.sessions sessionId = some session →
      Final session.status →
        ∃ session', (run (machine (coordinator p)) g (pre ++ [a])).state.sessions sessionId =
          some session' ∧ session'.status = session.status

/-- A signing that ends finds its session open, or with the status that it is about to write. -/
def EndsInTime (g : Config State Task) (a : Act Call Env) : Prop :=
  ∀ i env, a = .resume i env →
    (∀ c signature session key, g.tasks[i]? = some (.signature c signature) →
      g.state.sessions c.sessionId = some session → g.state.keys c.keyId = some key →
        Final session.status → session.status = .signed) ∧
    (∀ sessionId reason session, g.tasks[i]? = some (.failing sessionId reason) →
      g.state.sessions sessionId = some session → Final session.status →
        session.status = .rejected)

/-- The session is stored with this status. -/
def HasStatus (s : State) (sessionId : SessionId) (status : SessionStatus) : Prop :=
  ∃ session, s.sessions sessionId = some session ∧ session.status = status

variable {status : SessionStatus}

theorem HasStatus.update {id : SessionId} (h : HasStatus s sessionId status)
    (hs : s'.sessions = Function.update s.sessions id (some session))
    (hnew : id = sessionId → session.status = status) : HasStatus s' sessionId status := by
  obtain ⟨found, hfound, hstatus⟩ := h
  by_cases he : sessionId = id
  · refine ⟨session, ?_, hnew he.symm⟩
    rw [hs, he, Function.update_self]
  · refine ⟨found, ?_, hstatus⟩
    rw [hs, Function.update_of_ne he, hfound]

theorem HasStatus.eq (h : HasStatus s sessionId status)
    (hfound : s.sessions sessionId = some session) : session.status = status := by
  obtain ⟨found, hsame, hstatus⟩ := h
  rw [hfound] at hsame
  rw [Option.some.inj hsame, hstatus]

theorem maybeExpire_final (h : session.status ≠ .pending) (env : Env) :
    maybeExpire env session = session := if_neg fun hboth => h hboth.1

theorem Called.final (h : Called p env s x t s') (hfinal : Final status)
    (hs : HasStatus s sessionId status) : HasStatus s' sessionId status := by
  -- a session that has ended is only looked at
  have hclosed : ∀ {id session}, s.sessions id = some session → id = sessionId →
      session.status ≠ .pending := by
    rintro id session hfound rfl
    rw [hs.eq hfound]
    exact hfinal.ne_pending
  cases h with
  | quiet same =>
    obtain ⟨found, hfound, hstatus⟩ := hs
    exact ⟨found, (congrFun same.sessions sessionId).trans hfound, hstatus⟩
  | started hunused _ _ =>
    refine hs.update rfl ?_
    rintro rfl
    obtain ⟨found, hfound, _⟩ := hs
    rw [hunused] at hfound
    contradiction
  | looked hfound =>
    refine hs.update rfl fun he => ?_
    rw [maybeExpire_final (hclosed hfound he)]
    subst he
    exact hs.eq hfound
  | rejected hcontributes _ =>
    exact hs.update rfl fun he => absurd hcontributes.pending (hclosed hcontributes.found he)
  | approved hcontributes _ =>
    exact hs.update rfl fun he => absurd hcontributes.pending (hclosed hcontributes.found he)
  | completed hcontributes _ _ _ =>
    exact hs.update rfl fun he => absurd hcontributes.pending (hclosed hcontributes.found he)
  | made => exact hs
  | rotated => exact hs
  | adding => exact hs
  | removing => exact hs
  | revoked => exact hs

theorem Resumed.final (h : Resumed p env s task t s') (hfinal : Final status)
    (hs : HasStatus s sessionId status)
    (hsigned : ∀ c signature session key, task = .signature c signature →
      s.sessions c.sessionId = some session → s.keys c.keyId = some key →
        Final session.status → session.status = .signed)
    (hrejected : ∀ id reason session, task = .failing id reason → s.sessions id = some session →
      Final session.status → session.status = .rejected) :
    HasStatus s' sessionId status := by
  cases h with
  | @signed c signature session key hsession hkey =>
    refine hs.update rfl ?_
    rintro rfl
    have hstatus := hs.eq hsession
    rw [← hstatus]
    exact (hsigned c signature session key rfl hsession hkey (hstatus ▸ hfinal)).symm
  | @caught id reason session r hfound =>
    refine hs.update rfl ?_
    rintro rfl
    have hstatus := hs.eq hfound
    rw [← hstatus]
    exact (hrejected id reason session rfl hfound (hstatus ▸ hfinal)).symm
  | refreshed hfound =>
    refine hs.update rfl ?_
    rintro rfl
    have hstatus := hs.eq hfound
    rw [maybeExpire_final (hstatus ▸ hfinal.ne_pending), hstatus]
  | _ => exact hs

theorem final_commit (hfinal : Final status) (hs : HasStatus g.state sessionId status)
    (hends : EndsInTime g a) :
    HasStatus (commit (machine (coordinator p)) g a).state sessionId status := by
  obtain hmoves | he := commit_moves (coordinator p) g a
  · generalize commit (machine (coordinator p)) g a = g' at hmoves
    cases hmoves with
    | called hcalled => exact (called_of_call hcalled).final hfinal hs
    | resumed hwaiting hresumed =>
      obtain ⟨hsigned, hrejected⟩ := hends _ _ rfl
      refine (resumed_of_resume hresumed).final hfinal hs ?_ ?_
      · rintro c signature session key rfl
        exact hsigned c signature session key hwaiting
      · rintro id reason session rfl
        exact hrejected id reason session hwaiting
  · rwa [he]

theorem resume_signature {i : Nat} {c : Collection} {key : ManagedKey}
    (hwaiting : g.tasks[i]? = some (.signature c signature))
    (hsession : g.state.sessions c.sessionId = some session)
    (hkey : g.state.keys c.keyId = some key) (env : Env) :
    (commit (machine (coordinator p)) g (.resume i env)).state =
      signedState g.state c signature session key := by
  have hresume : (coordinator p).resume (.signature c signature) env g.state =
      (.waits (.finalised c.sessionId), signedState g.state c signature session key) := by
    simp only [coordinator, resume, finaliseSession, hsession, hkey]
    rfl
  rw [commit_resumed hwaiting hresume]

theorem resume_failing {i : Nat} {reason : String}
    (hwaiting : g.tasks[i]? = some (.failing sessionId reason))
    (hsession : g.state.sessions sessionId = some session) (env : Env) :
    (commit (machine (coordinator p)) g (.resume i env)).state =
      rejectSession g.state sessionId session reason := by
  have hresume : (coordinator p).resume (.failing sessionId reason) env g.state =
      (.done (.error reason), rejectSession g.state sessionId session reason) := by
    simp only [coordinator, resume, catchFailure, hsession]
    rfl
  rw [commit_resumed hwaiting hresume]

/-- Final statuses are for good in exactly the runs in which every signing ends in time. -/
theorem finalForGood_iff (p : Primitives) (nodes : NodeId → Option MpcNode)
    (acts : List (Act Call Env)) :
    FinalForGood p ⟨start nodes, []⟩ acts ↔
      Along (machine (coordinator p)) EndsInTime ⟨start nodes, []⟩ acts := by
  constructor
  · intro hgood
    refine along_iff_initial.mpr fun mid a hmid => ?_
    rintro i env rfl
    constructor
    · intro c signature session key hwaiting hsession hkey hfinal
      obtain ⟨after, hafter, hstatus⟩ := hgood mid _ _ session hmid hsession hfinal
      rw [run_snoc, resume_signature hwaiting hsession hkey env] at hafter
      simp only [signedState, setSession_sessions, Function.update_self,
        Option.some.injEq] at hafter
      rw [← hstatus, ← hafter]
    · intro sessionId reason session hwaiting hsession hfinal
      obtain ⟨after, hafter, hstatus⟩ := hgood mid _ _ session hmid hsession hfinal
      rw [run_snoc, resume_failing hwaiting hsession env] at hafter
      simp only [rejectSession, setSession_sessions, Function.update_self,
        Option.some.injEq] at hafter
      rw [← hstatus, ← hafter]
  · intro hends pre a sessionId session hinitial hsession hfinal
    have hlast := along_iff_initial.mp hends pre a hinitial
    rw [run_snoc]
    exact final_commit hfinal ⟨session, hsession, rfl⟩ hlast

/-- Three active nodes, whose identity keys are 32 times the same byte. -/
def quorumNodes : NodeId → Option MpcNode := fun nodeId =>
  if nodeId ∈ ["a", "b", "c"] then some ⟨.active, List.replicate 32 9⟩ else none

/-- Signatures that are the key and the signed message. -/
def openPrimitives : Primitives where
  ed25519PublicKey := fun seed => seed
  ed25519Sign := fun seed message => seed ++ message
  ed25519Verify := fun publicKey message signature => signature == publicKey ++ message
  sha256 := fun message => message

def atTime (now : Int) : Env := ⟨now, fun _ _ => 5⟩

/-- A key with the threshold 2, a session of it, and the approvals of `a` and `b`, for which the
backend does not find any node. -/
def signingStarts : List (Act Call Env) :=
  [.call (.runCeremony "k" 2 ["a", "b", "c"] (List.replicate 32 1)) (atTime 0),
    .call (.startSigningSession "s" "k" (List.replicate 30 7) (some 1000)) (atTime 0),
    .call (.setUnavailable "a" true) (atTime 0), .call (.setUnavailable "b" true) (atTime 0),
    .call (.setUnavailable "c" true) (atTime 0),
    .call (.contribute "s" "a"
      (List.replicate 32 9 ++ messageDigest openPrimitives "s" (List.replicate 30 7))) (atTime 1),
    .call (.contribute "s" "b"
      (List.replicate 32 9 ++ messageDigest openPrimitives "s" (List.replicate 30 7))) (atTime 1)]

/-- The session expires before the signing has failed. -/
def expiresMeanwhile : List (Act Call Env) :=
  signingStarts ++ [.resume 0 (atTime 2), .resume 0 (atTime 2), .resume 0 (atTime 2),
    .call (.getSigningSession "s") (atTime 1000)]

theorem expired_becomes_rejected :
    let status := fun acts => ((run (machine (coordinator openPrimitives))
      ⟨start quorumNodes, []⟩ acts).state.sessions "s").map (·.status)
    status expiresMeanwhile = some .expired ∧
      status (expiresMeanwhile ++ [.resume 0 (atTime 1001)]) = some .rejected ∧
        ¬ FinalForGood openPrimitives ⟨start quorumNodes, []⟩
          (expiresMeanwhile ++ [.resume 0 (atTime 1001)]) := by
  intro status
  have hexpired : status expiresMeanwhile = some .expired := by decide +kernel
  have hrejected : status (expiresMeanwhile ++ [.resume 0 (atTime 1001)]) = some .rejected := by
    decide +kernel
  refine ⟨hexpired, hrejected, fun hgood => ?_⟩
  obtain ⟨session, hsession, hstatus⟩ := Option.map_eq_some_iff.mp hexpired
  obtain ⟨after, hafter, hsame⟩ := hgood expiresMeanwhile _ "s" session (List.prefix_refl _)
    hsession (.inr (.inr hstatus))
  have hmap : status (expiresMeanwhile ++ [.resume 0 (atTime 1001)]) = some after.status := by
    simp only [status, hafter, Option.map_some]
  rw [hrejected, hsame, hstatus] at hmap
  contradiction

end Mpc
