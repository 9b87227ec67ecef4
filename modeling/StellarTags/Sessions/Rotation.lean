import StellarTags.Library.Runs
import StellarTags.Platform.Encoding

/-! Sessions: codes sent by e-mail, refresh tokens, and the requests that use them, await by await. -/

namespace StellarTags.Sessions

open Library.Runs Platform

section Model

structure Host where
  sha256 : Bytes → Digest
  xss : String → String
  toLowerCase : String → String
  /-- There is a private key to sign access tokens with. -/
  keyConfigured : Bool

structure ApiError where
  code : String
  message : String
  deriving DecidableEq, Repr

/-- A value that Redis keeps until a time. -/
structure Entry where
  value : String
  expiresAt : ℕ
  deriving DecidableEq, Repr

/-- What a request is answered with; a verified or refreshed one with an access token for the address. -/
inductive Answer
  | otpSent
  | verified (email : String) (token : Bool)
  | refreshed (email : String)
  | loggedOut
  | rejected (error : ApiError)
  | failed (message : String)
  deriving DecidableEq, Repr

/-- Where a request awaits Redis: a code to be stored, read or removed; a session to be read, removed
for another one, stored, or just removed. -/
inductive Phase
  | idle
  | sending (email otp : String)
  | confirming (email code : String)
  | clearing (email : String)
  | refreshing (token : String)
  | spending (key email : String)
  | opening (email : String) (answer : Answer)
  | leaving (key : String)
  | answered (answer : Answer)
  deriving DecidableEq, Repr

structure World where
  codes : String → Option Entry := fun _ => none
  sessions : String → Option Entry := fun _ => none
  calls : ℕ → Phase := fun _ => .idle

/-- Requests come, Redis answers, `opened` with the random bytes of a new token, or does not. -/
inductive Move
  | verifyEmail (i : ℕ) (email : String) (random : Fin 900000)
  | confirm (i : ℕ) (email code : String)
  | refresh (i : ℕ) (cookie : Option String)
  | logout (i : ℕ) (cookie : Option String)
  | resume (i : ℕ) (now : ℕ)
  | opened (i : ℕ) (now : ℕ) (token : String)
  | fail (i : ℕ) (message : String)

inductive Event
  | sent (i : ℕ) (key otp : String) (now : ℕ)
  | verified (i : ℕ) (email code : String) (now : ℕ)
  | opened (i : ℕ) (key email : String) (now : ℕ)
  | spent (i : ℕ) (key email : String) (now : ℕ)
  | removed (i : ℕ) (key : String)
  deriving DecidableEq, Repr

def OTP_TTL : ℕ := 600 * 1000

def REFRESH_TTL : ℕ := 30 * 24 * 60 * 60 * 1000

def notFound : ApiError := ⟨"NOT_FOUND", "Verification code not found or expired"⟩

def invalidCode : ApiError := ⟨"INVALID_INPUT", "Invalid verification code"⟩

def missingToken : ApiError := ⟨"UNAUTHENTICATED", "Refresh token is missing"⟩

def invalidToken : ApiError := ⟨"UNAUTHENTICATED", "Refresh token is invalid or expired"⟩

def noKey : String := "JWT_PRIVATE_KEY is not configured."

def otpOf (random : Fin 900000) : String := toString (100000 + random.val)

/-- What is read of an entry. -/
def live (entry : Option Entry) (now : ℕ) : Option String :=
  (entry.filter (now < ·.expiresAt)).map Entry.value

variable (host : Host)

def makeKey (email : String) : String := "email_verification:" ++ host.toLowerCase email

def refreshKey (token : String) : String := "auth:refresh:" ++ toHex (host.sha256 (utf8 token)).bytes

namespace World

variable (w : World)

def setCall (i : ℕ) (phase : Phase) : World :=
  { w with calls := Function.update w.calls i phase }

/-- A request that comes under a number that is free. -/
def arrive (i : ℕ) (phase : Phase) : World :=
  if w.calls i = .idle then w.setCall i phase else w

def setCode (key : String) (entry : Option Entry) : World :=
  { w with codes := Function.update w.codes key entry }

def setSession (key : String) (entry : Option Entry) : World :=
  { w with sessions := Function.update w.sessions key entry }

lemma calls_setCall (i j : ℕ) (phase : Phase) :
    (w.setCall i phase).calls j = if j = i then phase else w.calls j := Function.update_apply ..

lemma codes_setCode (key k : String) (entry : Option Entry) :
    (w.setCode key entry).codes k = if k = key then entry else w.codes k := Function.update_apply ..

lemma sessions_setSession (key k : String) (entry : Option Entry) :
    (w.setSession key entry).sessions k = if k = key then entry else w.sessions k :=
  Function.update_apply ..

/-- Redis answers what the request awaits, unless that is the new session. -/
def resume (i now : ℕ) : World × List Event :=
  match w.calls i with
  | .sending email otp =>
    ((w.setCode (makeKey host email) (some ⟨otp, now + OTP_TTL⟩)).setCall i (.answered .otpSent),
      [.sent i (makeKey host email) otp now])
  | .confirming email code =>
    match live (w.codes (makeKey host email)) now with
    | none => (w.setCall i (.answered (.rejected notFound)), [])
    | some stored =>
      if stored ≠ code then (w.setCall i (.answered (.rejected invalidCode)), [])
      else (w.setCall i (.clearing email), [.verified i email code now])
  | .clearing email =>
    let w := w.setCode (makeKey host email) none
    if host.keyConfigured then (w.setCall i (.opening email (.verified email true)), [])
    else (w.setCall i (.answered (.verified email false)), [])
  | .refreshing token =>
    let key := refreshKey host token
    match live (w.sessions key) now with
    | none => (w.setCall i (.answered (.rejected invalidToken)), [])
    | some email => (w.setCall i (.spending key email), [.spent i key email now])
  | .spending key email =>
    let w := w.setSession key none
    if host.keyConfigured then (w.setCall i (.opening email (.refreshed email)), [.removed i key])
    else (w.setCall i (.answered (.failed noKey)), [.removed i key])
  | .leaving key =>
    ((w.setSession key none).setCall i (.answered .loggedOut), [.removed i key])
  | .idle | .opening .. | .answered _ => (w, [])

/-- The new session is stored, and the request answered with its access token. -/
def issueRefreshToken (i now : ℕ) (token : String) : World × List Event :=
  match w.calls i with
  | .opening email answer =>
    let key := refreshKey host token
    ((w.setSession key (some ⟨email, now + REFRESH_TTL⟩)).setCall i (.answered answer),
      [.opened i key email now])
  | _ => (w, [])

/-- Redis refuses what the request awaits. -/
def fail (i : ℕ) (message : String) : World :=
  match w.calls i with
  | .idle | .answered _ => w
  | _ => w.setCall i (.answered (.failed message))

end World

def advance (w : World) : Move → World × List Event
  | .verifyEmail i email random => (w.arrive i (.sending (host.xss email) (otpOf random)), [])
  | .confirm i email code => (w.arrive i (.confirming (host.xss email) code), [])
  | .refresh i cookie =>
    match cookie.filter (· ≠ "") with
    | none => (w.arrive i (.answered (.rejected missingToken)), [])
    | some token => (w.arrive i (.refreshing token), [])
  | .logout i cookie =>
    match cookie.filter (· ≠ "") with
    | none => (w.arrive i (.answered .loggedOut), [])
    | some token => (w.arrive i (.leaving (refreshKey host token)), [])
  | .resume i now => w.resume host i now
  | .opened i now token => w.issueRefreshToken host i now token
  | .fail i message => (w.fail i message, [])

def step (move : Move) (w : World) : World := (advance host w move).1

def emit (w : World) (move : Move) : List Event := (advance host w move).2

end Model

section Steps

/-- Phases that nothing has to be shown for. -/
def Phase.Plain : Phase → Prop
  | .clearing _ | .spending .. | .opening .. => False
  | .answered (.verified _ token) => token = false
  | .answered (.refreshed _) => False
  | _ => True

def Move.drawn : Move → Option String
  | .opened _ _ token => some token
  | _ => none

/-- What a step can do, with the token that is drawn in it. -/
inductive Steps (host : Host) (w : World) (drawn : Option String) : List Event → World → Prop
  | still : Steps host w drawn [] w
  | plain (i phase) (h : phase.Plain) : Steps host w drawn [] (w.setCall i phase)
  | sent (i key otp now) : Steps host w drawn [.sent i key otp now]
      ((w.setCode key (some ⟨otp, now + OTP_TTL⟩)).setCall i (.answered .otpSent))
  | verified (i email code now) (h : live (w.codes (makeKey host email)) now = some code) :
      Steps host w drawn [.verified i email code now] (w.setCall i (.clearing email))
  | cleared (i email phase) (h : w.calls i = .clearing email)
      (hphase : phase.Plain ∨ phase = .opening email (.verified email true)) :
      Steps host w drawn [] ((w.setCode (makeKey host email) none).setCall i phase)
  | spent (i key email now) (h : live (w.sessions key) now = some email) :
      Steps host w drawn [.spent i key email now] (w.setCall i (.spending key email))
  | removed (i key phase) (h : phase.Plain ∨ ∃ email, w.calls i = .spending key email ∧
      phase = .opening email (.refreshed email)) :
      Steps host w drawn [.removed i key] ((w.setSession key none).setCall i phase)
  | opened (i email answer now token) (h : w.calls i = .opening email answer) (hdrawn : drawn = some token) :
      Steps host w drawn [.opened i (refreshKey host token) email now]
        ((w.setSession (refreshKey host token) (some ⟨email, now + REFRESH_TTL⟩)).setCall i
          (.answered answer))

variable {host : Host} {w : World} {drawn : Option String}

lemma Steps.arrive {i : ℕ} {phase : Phase} (h : phase.Plain) :
    Steps host w drawn [] (w.arrive i phase) := by
  rw [World.arrive]
  split_ifs
  · exact .plain i phase h
  · exact .still

lemma Steps.resume (i now : ℕ) :
    Steps host w drawn (w.resume host i now).2 (w.resume host i now).1 := by
  rw [World.resume.eq_def]
  cases hcall : w.calls i with
  | idle => exact .still
  | sending email otp => exact .sent i (makeKey host email) otp now
  | confirming email code =>
    simp only
    cases hlive : live (w.codes (makeKey host email)) now with
    | none => exact .plain i _ trivial
    | some stored =>
      simp only
      by_cases hcode : stored = code
      · rw [if_neg (not_not_intro hcode)]
        subst hcode
        exact .verified i email stored now hlive
      · rw [if_pos hcode]
        exact .plain i _ trivial
  | clearing email =>
    simp only
    by_cases hkey : host.keyConfigured = true
    · rw [if_pos hkey]
      exact .cleared i email _ hcall (.inr rfl)
    · rw [if_neg hkey]
      exact .cleared i email _ hcall (.inl rfl)
  | refreshing token =>
    simp only
    cases hlive : live (w.sessions (refreshKey host token)) now with
    | none => exact .plain i _ trivial
    | some email => exact .spent i (refreshKey host token) email now hlive
  | spending key email =>
    simp only
    by_cases hkey : host.keyConfigured = true
    · rw [if_pos hkey]
      exact .removed i key _ (.inr ⟨email, hcall, rfl⟩)
    · rw [if_neg hkey]
      exact .removed i key _ (.inl trivial)
  | opening email answer => exact .still
  | leaving key => exact .removed i key _ (.inl trivial)
  | answered answer => exact .still

lemma Steps.fail (i : ℕ) (message : String) : Steps host w drawn [] (w.fail i message) := by
  rw [World.fail.eq_def]
  cases hcall : w.calls i with
  | idle => exact .still
  | answered => exact .still
  | _ => exact .plain i _ trivial

lemma steps (move : Move) : Steps host w move.drawn (emit host w move) (step host move w) := by
  cases move with
  | verifyEmail i email random => exact .arrive trivial
  | confirm i email code => exact .arrive trivial
  | refresh i cookie =>
    rw [emit, step, advance]
    cases cookie.filter (· ≠ "") with
    | none => exact .arrive trivial
    | some token => exact .arrive trivial
  | logout i cookie =>
    rw [emit, step, advance]
    cases cookie.filter (· ≠ "") with
    | none => exact .arrive trivial
    | some token => exact .arrive trivial
  | resume i now => exact .resume i now
  | opened i now token =>
    rw [emit, step, advance, World.issueRefreshToken.eq_def]
    cases hcall : w.calls i with
    | opening email answer => exact .opened i email answer now token hcall rfl
    | _ => exact .still
  | fail i message => exact .fail i message

end Steps

section Provenance

/-- Somebody presented a code that had been sent for the address, in time. -/
def Earned (host : Host) (log : List Event) (email : String) : Prop :=
  ∃ i code now j before, .verified i email code now ∈ log ∧
    .sent j (makeKey host email) code before ∈ log ∧ now < before + OTP_TTL

/-- What a request in a phase must have done. -/
def Owed (log : List Event) (i : ℕ) : Phase → Prop
  | .clearing email => ∃ code now, .verified i email code now ∈ log
  | .spending key email => ∃ now, .spent i key email now ∈ log
  | .opening email answer =>
    (answer = .verified email true ∧ ∃ code now, .verified i email code now ∈ log) ∨
      answer = .refreshed email ∧ ∃ key now, .spent i key email now ∈ log
  | .answered (.verified email token) => token = true → ∃ code now, .verified i email code now ∈ log
  | .answered (.refreshed email) => ∃ key now, .spent i key email now ∈ log
  | _ => True

structure Accounted (host : Host) (log : List Event) (w : World) : Prop where
  codes : ∀ key entry, w.codes key = some entry →
    ∃ i now, .sent i key entry.value now ∈ log ∧ entry.expiresAt = now + OTP_TTL
  sessions : ∀ key entry, w.sessions key = some entry →
    ∃ i now, .opened i key entry.value now ∈ log ∧ entry.expiresAt = now + REFRESH_TTL
  verified : ∀ i email code now, .verified i email code now ∈ log →
    ∃ j before, .sent j (makeKey host email) code before ∈ log ∧ now < before + OTP_TTL
  opened : ∀ i key email now, .opened i key email now ∈ log → Earned host log email
  spent : ∀ i key email now, .spent i key email now ∈ log →
    ∃ j before, .opened j key email before ∈ log ∧ now < before + REFRESH_TTL
  calls : ∀ i, Owed log i (w.calls i)

variable {host : Host} {w : World} {log more : List Event} {i : ℕ} {phase : Phase} {email : String}

lemma live_eq_some {entry : Option Entry} {now : ℕ} {value : String} (h : live entry now = some value) :
    ∃ e, entry = some e ∧ e.value = value ∧ now < e.expiresAt := by
  obtain ⟨e, he, rfl⟩ := Option.map_eq_some_iff.mp h
  obtain ⟨rfl, hlive⟩ := Option.filter_eq_some_iff.mp he
  exact ⟨e, rfl, rfl, of_decide_eq_true hlive⟩

lemma Earned.mono (h : Earned host log email) (hlog : ∀ e ∈ log, e ∈ more) :
    Earned host more email := by
  obtain ⟨i, code, now, j, before, hverified, hsent, hlt⟩ := h
  exact ⟨i, code, now, j, before, hlog _ hverified, hlog _ hsent, hlt⟩

lemma Owed.mono (h : Owed log i phase) (hlog : ∀ e ∈ log, e ∈ more) : Owed more i phase := by
  cases phase with
  | clearing email =>
    obtain ⟨code, now, hverified⟩ := h
    exact ⟨code, now, hlog _ hverified⟩
  | spending key email =>
    obtain ⟨now, hspent⟩ := h
    exact ⟨now, hlog _ hspent⟩
  | opening email answer =>
    obtain ⟨rfl, code, now, hverified⟩ | ⟨rfl, key, now, hspent⟩ := h
    · exact .inl ⟨rfl, code, now, hlog _ hverified⟩
    · exact .inr ⟨rfl, key, now, hlog _ hspent⟩
  | answered answer =>
    cases answer with
    | verified email token =>
      intro htoken
      obtain ⟨code, now, hverified⟩ := h htoken
      exact ⟨code, now, hlog _ hverified⟩
    | refreshed email =>
      obtain ⟨key, now, hspent⟩ := h
      exact ⟨key, now, hlog _ hspent⟩
    | otpSent | loggedOut | rejected | failed => trivial
  | idle | sending | confirming | refreshing | leaving => trivial

lemma Phase.Plain.owed (h : phase.Plain) : Owed log i phase := by
  cases phase with
  | clearing | spending | opening => exact h.elim
  | answered answer =>
    cases answer with
    | verified email token => exact fun htoken => absurd (h.symm.trans htoken) Bool.false_ne_true
    | refreshed => exact h.elim
    | otpSent | loggedOut | rejected | failed => trivial
  | idle | sending | confirming | refreshing | leaving => trivial

namespace Accounted

lemma init : Accounted host [] {} where
  codes _ _ h := by cases h
  sessions _ _ h := by cases h
  verified _ _ _ _ h := by cases h
  opened _ _ _ _ h := by cases h
  spent _ _ _ _ h := by cases h
  calls _ := trivial

/-- A request goes on to a phase that it may be in. -/
lemma setCall (h : Accounted host log w) (hphase : Owed log i phase) :
    Accounted host log (w.setCall i phase) :=
  { h with
    calls := fun j => by
      rw [World.calls_setCall]
      split_ifs with hj
      · rwa [hj]
      · exact h.calls j }

lemma setCode {key : String} (h : Accounted host log w) {entry : Option Entry}
    (hentry : ∀ e, entry = some e →
      ∃ i now, .sent i key e.value now ∈ log ∧ e.expiresAt = now + OTP_TTL) :
    Accounted host log (w.setCode key entry) :=
  { h with
    codes := fun k e he => by
      rw [World.codes_setCode] at he
      split_ifs at he with hk
      · rw [hk]
        exact hentry e he
      · exact h.codes k e he }

lemma setSession {key : String} (h : Accounted host log w) {entry : Option Entry}
    (hentry : ∀ e, entry = some e →
      ∃ i now, .opened i key e.value now ∈ log ∧ e.expiresAt = now + REFRESH_TTL) :
    Accounted host log (w.setSession key entry) :=
  { h with
    sessions := fun k e he => by
      rw [World.sessions_setSession] at he
      split_ifs at he with hk
      · rw [hk]
        exact hentry e he
      · exact h.sessions k e he }

/-- Something more has happened that is accounted for. -/
lemma record (h : Accounted host log w) (event : Event)
    (hverified : ∀ i email code now, event = .verified i email code now →
      ∃ j before, .sent j (makeKey host email) code before ∈ log ∧ now < before + OTP_TTL)
    (hopened : ∀ i key email now, event = .opened i key email now → Earned host log email)
    (hspent : ∀ i key email now, event = .spent i key email now →
      ∃ j before, .opened j key email before ∈ log ∧ now < before + REFRESH_TTL) :
    Accounted host (log ++ [event]) w := by
  have hlog : ∀ e ∈ log, e ∈ log ++ [event] := fun e he => List.mem_append_left _ he
  have hsplit {e : Event} (he : e ∈ log ++ [event]) : e ∈ log ∨ event = e :=
    (List.mem_append.mp he).imp_right fun he => (List.mem_singleton.mp he).symm
  refine ⟨?_, ?_, ?_, ?_, ?_, fun i => (h.calls i).mono hlog⟩
  · intro key entry hentry
    obtain ⟨i, now, hsent, hexpires⟩ := h.codes key entry hentry
    exact ⟨i, now, hlog _ hsent, hexpires⟩
  · intro key entry hentry
    obtain ⟨i, now, hopened, hexpires⟩ := h.sessions key entry hentry
    exact ⟨i, now, hlog _ hopened, hexpires⟩
  · intro i email code now hmem
    obtain ⟨j, before, hsent, hlt⟩ : ∃ j before, .sent j (makeKey host email) code before ∈ log ∧
        now < before + OTP_TTL := by
      obtain hmem | rfl := hsplit hmem
      · exact h.verified i email code now hmem
      · exact hverified i email code now rfl
    exact ⟨j, before, hlog _ hsent, hlt⟩
  · intro i key email now hmem
    obtain hmem | rfl := hsplit hmem
    · exact (h.opened i key email now hmem).mono hlog
    · exact (hopened i key email now rfl).mono hlog
  · intro i key email now hmem
    obtain ⟨j, before, hbefore, hlt⟩ : ∃ j before, .opened j key email before ∈ log ∧
        now < before + REFRESH_TTL := by
      obtain hmem | rfl := hsplit hmem
      · exact h.spent i key email now hmem
      · exact hspent i key email now rfl
    exact ⟨j, before, hlog _ hbefore, hlt⟩

/-- Whoever is about to be given a session has earned it. -/
lemma earned_of_opening (h : Accounted host log w) {answer : Answer}
    (hcall : w.calls i = .opening email answer) : Earned host log email := by
  have howed := h.calls i
  rw [hcall] at howed
  obtain ⟨-, code, now, hverified⟩ | ⟨-, key, now, hspent⟩ := howed
  · obtain ⟨j, before, hsent, hlt⟩ := h.verified i email code now hverified
    exact ⟨i, code, now, j, before, hverified, hsent, hlt⟩
  · obtain ⟨j, before, hopened, -⟩ := h.spent i key email now hspent
    exact h.opened j key email before hopened

lemma owed_opening (h : Accounted host log w) {answer : Answer}
    (hcall : w.calls i = .opening email answer) : Owed log i (.answered answer) := by
  have howed := h.calls i
  rw [hcall] at howed
  obtain ⟨rfl, code, now, hverified⟩ | ⟨rfl, key, now, hspent⟩ := howed
  · exact fun _ => ⟨code, now, hverified⟩
  · exact ⟨key, now, hspent⟩

lemma steps {es : List Event} {w' : World} {drawn : Option String} (h : Accounted host log w)
    (hsteps : Steps host w drawn es w') :
    Accounted host (log ++ es) w' := by
  cases hsteps with
  | still => rwa [List.append_nil]
  | plain i phase hplain =>
    rw [List.append_nil]
    exact h.setCall hplain.owed
  | sent i key otp now =>
    have hrecord := h.record (.sent i key otp now) (by simp) (by simp) (by simp)
    refine (hrecord.setCode ?_).setCall trivial
    rintro e he
    obtain rfl := Option.some.inj he
    exact ⟨i, now, List.mem_append_right _ List.mem_cons_self, rfl⟩
  | verified i email code now hlive =>
    obtain ⟨e, hcode, rfl, hlt⟩ := live_eq_some hlive
    obtain ⟨j, before, hsent, hexpires⟩ := h.codes _ e hcode
    have hrecord := h.record (.verified i email e.value now) (fun i' email' code' now' heq => by
      cases heq
      exact ⟨j, before, hsent, hexpires ▸ hlt⟩) (by simp) (by simp)
    exact hrecord.setCall ⟨e.value, now, List.mem_append_right _ List.mem_cons_self⟩
  | cleared i email phase hcall hphase =>
    rw [List.append_nil]
    refine (h.setCode fun e he => by cases he).setCall ?_
    obtain hplain | rfl := hphase
    · exact hplain.owed
    · have howed := h.calls i
      rw [hcall] at howed
      exact .inl ⟨rfl, howed⟩
  | spent i key email now hlive =>
    obtain ⟨e, hsession, rfl, hlt⟩ := live_eq_some hlive
    obtain ⟨j, before, hopened, hexpires⟩ := h.sessions key e hsession
    have hrecord := h.record (.spent i key e.value now) (by simp) (by simp)
      (fun i' key' email' now' heq => by
        cases heq
        exact ⟨j, before, hopened, hexpires ▸ hlt⟩)
    exact hrecord.setCall ⟨now, List.mem_append_right _ List.mem_cons_self⟩
  | removed i key phase hphase =>
    have hrecord := h.record (.removed i key) (by simp) (by simp) (by simp)
    refine (hrecord.setSession fun e he => by cases he).setCall ?_
    obtain hplain | ⟨email, hcall, rfl⟩ := hphase
    · exact hplain.owed
    · have howed := hrecord.calls i
      rw [hcall] at howed
      exact .inr ⟨rfl, key, howed⟩
  | opened i email answer now token hcall _ =>
    have hrecord := h.record (.opened i (refreshKey host token) email now) (by simp)
      (fun i' key' email' now' heq => by
        cases heq
        exact h.earned_of_opening hcall) (by simp)
    refine (hrecord.setSession ?_).setCall (hrecord.owed_opening hcall)
    rintro e he
    obtain rfl := Option.some.inj he
    exact ⟨i, now, List.mem_append_right _ List.mem_cons_self, rfl⟩

end Accounted

/-- Access tokens go to requests that presented a code in time or read a session that had not run out,
and sessions are opened only for addresses that a code was sent for and presented. -/
theorem sessions_earned (host : Host) (moves : List Move) :
    let log := trace (step host) (emit host) {} moves
    let w := run (step host) {} moves
    (∀ i email, w.calls i = .answered (.verified email true) →
      ∃ code now j before, .verified i email code now ∈ log ∧
        .sent j (makeKey host email) code before ∈ log ∧ now < before + OTP_TTL) ∧
    (∀ i email, w.calls i = .answered (.refreshed email) →
      ∃ key now j before, .spent i key email now ∈ log ∧ .opened j key email before ∈ log ∧
        now < before + REFRESH_TTL) ∧
    ∀ i key email now, .opened i key email now ∈ log → Earned host log email := by
  intro log w
  have h : Accounted host log w := by
    have hstep (log : List Event) (w : World) (move : Move) (h : Accounted host log w) :
        Accounted host (log ++ emit host w move) (step host move w) := h.steps (steps move)
    exact trace_invariant hstep Accounted.init moves
  refine ⟨fun i email hcall => ?_, fun i email hcall => ?_, h.opened⟩
  · have howed := h.calls i
    rw [hcall] at howed
    obtain ⟨code, now, hverified⟩ := howed rfl
    obtain ⟨j, before, hsent, hlt⟩ := h.verified i email code now hverified
    exact ⟨code, now, j, before, hverified, hsent, hlt⟩
  · have howed := h.calls i
    rw [hcall] at howed
    obtain ⟨key, now, hspent⟩ := howed
    obtain ⟨j, before, hopened, hlt⟩ := h.spent i key email now hspent
    exact ⟨key, now, j, before, hspent, hopened, hlt⟩

end Provenance

section Rotation

/-- A session was opened under the key, and removed since. -/
def Closed (key : String) (log : List Event) : Prop :=
  ∃ a b i email now j, log = a ++ b ∧ .opened i key email now ∈ a ∧ .removed j key ∈ b

/-- What holds of keys while none is drawn twice. -/
structure Shut (keys : List String) (log : List Event) (w : World) : Prop where
  drawn : ∀ i key email now, .opened i key email now ∈ log → key ∈ keys
  gone : ∀ key, Closed key log → w.sessions key = none
  refused : ∀ key a b, log = a ++ b → Closed key a → ∀ i email now, .spent i key email now ∉ b

variable {host : Host} {w w' : World} {log : List Event} {es : List Event} {event : Event}
  {key email token : String} {keys : List String} {i now : ℕ}

lemma Closed.append (h : Closed key log) (more : List Event) : Closed key (log ++ more) := by
  obtain ⟨a, b, i, email, now, j, rfl, hopened, hremoved⟩ := h
  exact ⟨a, b ++ more, i, email, now, j, List.append_assoc .., hopened, List.mem_append_left _ hremoved⟩

lemma Closed.opened (h : Closed key log) : ∃ i email now, .opened i key email now ∈ log := by
  obtain ⟨a, b, i, email, now, j, rfl, hopened, -⟩ := h
  exact ⟨i, email, now, List.mem_append_left _ hopened⟩

/-- Only a removal closes a key. -/
lemma Closed.of_append_singleton (h : Closed key (log ++ [event]))
    (hevent : ∀ j, event ≠ .removed j key) : Closed key log := by
  obtain ⟨a, b, i, email, now, j, heq, hopened, hremoved⟩ := h
  obtain rfl | ⟨b, last, rfl⟩ := List.eq_nil_or_concat b
  · exact absurd hremoved List.not_mem_nil
  rw [List.concat_eq_append, ← List.append_assoc] at heq
  obtain ⟨rfl, hlast⟩ := List.append_inj' heq rfl
  obtain rfl := List.singleton_inj.mp hlast
  rw [List.concat_eq_append, List.mem_append, List.mem_singleton] at hremoved
  obtain hremoved | heq := hremoved
  · exact ⟨a, b, i, email, now, j, rfl, hopened, hremoved⟩
  · exact absurd heq.symm (hevent j)

namespace Shut

lemma quiet (h : Shut keys log w) (hsessions : w'.sessions = w.sessions) : Shut keys log w' :=
  ⟨h.drawn, fun key hkey => by rw [hsessions]; exact h.gone key hkey, h.refused⟩

/-- One more event: only a removal may close a key, only a live session is read, and a session is opened
under a key that was not drawn before. -/
lemma record (h : Shut keys log w)
    (hdrawn : ∀ i key email now, event = .opened i key email now → key ∈ keys)
    (hgone : ∀ key, (∀ j, event = .removed j key → w'.sessions key = none) ∧
      (Closed key log → w.sessions key = none → w'.sessions key = none))
    (hspent : ∀ i key email now, event = .spent i key email now → w.sessions key ≠ none) :
    Shut keys (log ++ [event]) w' := by
  have hclosed (key : String) (hkey : Closed key log) : w.sessions key = none := h.gone key hkey
  refine ⟨fun i key email now hmem => ?_, fun key hkey => ?_, fun key a b heq ha i email now hmem => ?_⟩
  · obtain hmem | hmem := List.mem_append.mp hmem
    · exact h.drawn i key email now hmem
    · exact hdrawn i key email now (List.mem_singleton.mp hmem).symm
  · by_cases hremoved : ∃ j, event = .removed j key
    · obtain ⟨j, hj⟩ := hremoved
      exact (hgone key).1 j hj
    · have hlog := hkey.of_append_singleton (not_exists.mp hremoved)
      exact (hgone key).2 hlog (hclosed key hlog)
  · obtain rfl | ⟨b, last, rfl⟩ := List.eq_nil_or_concat b
    · exact absurd hmem List.not_mem_nil
    rw [List.concat_eq_append, ← List.append_assoc] at heq
    obtain ⟨rfl, hlast⟩ := List.append_inj' heq rfl
    obtain rfl := List.singleton_inj.mp hlast
    rw [List.concat_eq_append, List.mem_append, List.mem_singleton] at hmem
    obtain hmem | rfl := hmem
    · exact h.refused key a b rfl ha i email now hmem
    · exact hspent i key email now rfl (hclosed key (ha.append b))

lemma steps {drawn : Option String} (h : Shut keys log w) (hsteps : Steps host w drawn es w')
    (hfresh : ∀ token, drawn = some token → refreshKey host token ∉ keys) :
    Shut (keys ++ (drawn.map (refreshKey host)).toList) (log ++ es) w' := by
  have h : Shut keys log w ∧ Shut (keys ++ (drawn.map (refreshKey host)).toList) log w :=
    ⟨h, fun i key email now hmem => List.mem_append_left _ (h.drawn i key email now hmem), h.gone,
      h.refused⟩
  cases hsteps with
  | still => rw [List.append_nil]; exact h.2
  | plain i phase _ => rw [List.append_nil]; exact h.2.quiet rfl
  | cleared i email phase _ _ => rw [List.append_nil]; exact h.2.quiet rfl
  | sent i key otp now => exact h.2.record (by simp) (fun key => ⟨by simp, fun _ hw => hw⟩) (by simp)
  | verified i email code now _ =>
    exact h.2.record (by simp) (fun key => ⟨by simp, fun _ hw => hw⟩) (by simp)
  | spent i key email now hlive =>
    refine h.2.record (by simp) (fun key => ⟨by simp, fun _ hw => hw⟩) fun i' key' email' now' heq => ?_
    cases heq
    obtain ⟨e, hsession, -, -⟩ := live_eq_some hlive
    rw [hsession]
    exact Option.some_ne_none e
  | removed i key phase _ =>
    have hsessions (k : String) : ((w.setSession key none).setCall i phase).sessions k =
        if k = key then none else w.sessions k := w.sessions_setSession key k none
    refine h.2.record (by simp) (fun k => ⟨fun j heq => ?_, fun _ hw => ?_⟩) (by simp)
    · cases heq
      rw [hsessions, if_pos rfl]
    · rw [hsessions, hw, ite_self]
  | opened i email answer now token _ hdrawn =>
    subst hdrawn
    refine h.2.record (fun i' key' email' now' heq => ?_)
      (fun k => ⟨by simp, fun hclosed hw => ?_⟩) (by simp)
    · cases heq
      exact List.mem_append_right _ List.mem_cons_self
    · have hne : k ≠ refreshKey host token := by
        rintro rfl
        obtain ⟨j, email', before, hopened⟩ := hclosed.opened
        exact hfresh token rfl (h.1.drawn j _ email' before hopened)
      exact (w.sessions_setSession _ k _).trans ((if_neg hne).trans hw)

end Shut

lemma shut (moves : List Move) (hfresh : ((moves.filterMap Move.drawn).map (refreshKey host)).Nodup) :
    Shut ((moves.filterMap Move.drawn).map (refreshKey host)) (trace (step host) (emit host) {} moves)
      (run (step host) {} moves) := by
  induction moves using List.reverseRecOn with
  | nil =>
    refine ⟨fun i key email now h => absurd h List.not_mem_nil, fun key h => rfl, ?_⟩
    intro key a b heq _ i email now hmem
    rw [(List.append_eq_nil_iff.mp heq.symm).2] at hmem
    exact absurd hmem List.not_mem_nil
  | append_singleton moves move ih =>
    have hkeys : ((moves ++ [move]).filterMap Move.drawn).map (refreshKey host) =
        (moves.filterMap Move.drawn).map (refreshKey host) ++
          (move.drawn.map (refreshKey host)).toList := by
      rw [List.filterMap_append, List.map_append]
      cases hdrawn : move.drawn with
      | none => rw [List.filterMap_cons_none hdrawn]; rfl
      | some token => rw [List.filterMap_cons_some hdrawn]; rfl
    rw [hkeys] at hfresh ⊢
    obtain ⟨hbefore, -, hapart⟩ := List.nodup_append.mp hfresh
    have hnext := (ih hbefore).steps (steps move) fun token hdrawn hmem =>
      hapart _ hmem (refreshKey host token) (by rw [hdrawn]; exact List.mem_singleton_self _) rfl
    rw [trace_append, run_append, trace, trace, List.append_nil]
    exact hnext

/-- Requests that present one token, and each go on to a new one before the next does. -/
def together (token : String) (now : ℕ) (draw : ℕ → String) (is : List ℕ) : List Move :=
  (is.map fun i => .refresh i (some token)) ++ (is.map fun i => .resume i now) ++
    (is.map fun i => .resume i now) ++ is.map fun i => .opened i now (draw i)

lemma step_refresh (hcall : w.calls i = .idle) (htoken : token ≠ "") :
    step host (.refresh i (some token)) w = w.setCall i (.refreshing token) := by
  have hcookie : (some token).filter (· ≠ "") = some token := by
    rw [Option.filter_some, if_pos (decide_eq_true htoken)]
  rw [step, advance, hcookie]
  exact if_pos hcall

lemma step_read (hcall : w.calls i = .refreshing token)
    (hlive : live (w.sessions (refreshKey host token)) now = some email) :
    step host (.resume i now) w = w.setCall i (.spending (refreshKey host token) email) := by
  rw [step, advance, World.resume.eq_def, hcall]
  simp only [hlive]

lemma step_remove (hcall : w.calls i = .spending key email) (hhost : host.keyConfigured = true) :
    step host (.resume i now) w =
      (w.setSession key none).setCall i (.opening email (.refreshed email)) := by
  rw [step, advance, World.resume.eq_def, hcall]
  simp only [hhost, if_true]

lemma step_opened {answer : Answer} (hcall : w.calls i = .opening email answer) :
    step host (.opened i now token) w = (w.setSession (refreshKey host token)
      (some ⟨email, now + REFRESH_TTL⟩)).setCall i (.answered answer) := by
  rw [step, advance, World.issueRefreshToken.eq_def, hcall]

section Together

variable {is : List ℕ} {draw : ℕ → String}

lemma setCall_other {phase : Phase} {j : ℕ} (hne : j ≠ i) : (w.setCall i phase).calls j = w.calls j :=
  (w.calls_setCall i j phase).trans (if_neg hne)

lemma setCall_self {phase : Phase} : (w.setCall i phase).calls i = phase :=
  (w.calls_setCall i i phase).trans (if_pos rfl)

lemma arrive_together (htoken : token ≠ "") (his : is.Nodup)
    (hlive : live (w.sessions (refreshKey host token)) now = some email)
    (hidle : ∀ i ∈ is, w.calls i = .idle) :
    live ((run (step host) w (is.map fun i => .refresh i (some token))).sessions
        (refreshKey host token)) now = some email ∧
      ∀ i ∈ is, (run (step host) w (is.map fun i => .refresh i (some token))).calls i =
        .refreshing token := by
  refine run_each (C := fun v : World => live (v.sessions (refreshKey host token)) now = some email)
    (B := fun i (v : World) => v.calls i = .idle)
    (A := fun i (v : World) => v.calls i = .refreshing token)
    (fun v i _ hv hcall => ?_) (fun v j _ i _ hne _ hcall => ?_) his hlive hidle
  · rw [step_refresh hcall htoken]
    exact ⟨hv, setCall_self⟩
  · rw [step_refresh hcall htoken, setCall_other hne]
    exact ⟨id, id⟩

lemma read_together (his : is.Nodup)
    (hlive : live (w.sessions (refreshKey host token)) now = some email)
    (hcalls : ∀ i ∈ is, w.calls i = .refreshing token) :
    ∀ i ∈ is, (run (step host) w (is.map fun i => .resume i now)).calls i =
      .spending (refreshKey host token) email := by
  refine (run_each (C := fun v : World => live (v.sessions (refreshKey host token)) now = some email)
    (B := fun i (v : World) => v.calls i = .refreshing token)
    (A := fun i (v : World) => v.calls i = .spending (refreshKey host token) email)
    (fun v i _ hv hcall => ?_) (fun v j _ i _ hne hv hcall => ?_) his hlive hcalls).2
  · rw [step_read hcall hv]
    exact ⟨hv, setCall_self⟩
  · rw [step_read hcall hv, setCall_other hne]
    exact ⟨id, id⟩

lemma remove_together (hhost : host.keyConfigured = true) (his : is.Nodup)
    (hcalls : ∀ i ∈ is, w.calls i = .spending key email) :
    ∀ i ∈ is, (run (step host) w (is.map fun i => .resume i now)).calls i =
      .opening email (.refreshed email) := by
  refine (run_each (C := fun _ : World => True)
    (B := fun i (v : World) => v.calls i = .spending key email)
    (A := fun i (v : World) => v.calls i = .opening email (.refreshed email))
    (fun v i _ _ hcall => ?_) (fun v j _ i _ hne _ hcall => ?_) his trivial hcalls).2
  · rw [step_remove hcall hhost]
    exact ⟨trivial, setCall_self⟩
  · rw [step_remove hcall hhost, setCall_other hne]
    exact ⟨id, id⟩

lemma open_together {answer : Answer} (his : is.Nodup)
    (hdraw : (is.map fun i => refreshKey host (draw i)).Nodup)
    (hcalls : ∀ i ∈ is, w.calls i = .opening email answer) :
    ∀ i ∈ is, (run (step host) w (is.map fun i => .opened i now (draw i))).calls i = .answered answer ∧
      (run (step host) w (is.map fun i => .opened i now (draw i))).sessions
        (refreshKey host (draw i)) = some ⟨email, now + REFRESH_TTL⟩ := by
  refine (run_each (C := fun _ : World => True)
    (B := fun i (v : World) => v.calls i = .opening email answer)
    (A := fun i (v : World) => v.calls i = .answered answer ∧
      v.sessions (refreshKey host (draw i)) = some ⟨email, now + REFRESH_TTL⟩)
    (fun v i _ _ hcall => ?_) (fun v j hj i hi hne _ hcall => ?_) his trivial hcalls).2
  · rw [step_opened hcall]
    exact ⟨trivial, setCall_self, (v.sessions_setSession _ _ _).trans (if_pos rfl)⟩
  · have hkeys : refreshKey host (draw j) ≠ refreshKey host (draw i) := fun heq =>
      hne (List.inj_on_of_nodup_map hdraw hj hi heq)
    rw [step_opened hcall, setCall_other hne]
    refine ⟨id, fun hafter => ⟨hafter.1, ?_⟩⟩
    exact ((v.sessions_setSession _ _ _).trans (if_neg hkeys)).trans hafter.2

end Together

def sampleHost : Host := ⟨sampleSha256, id, id, true⟩

end Rotation

end StellarTags.Sessions
