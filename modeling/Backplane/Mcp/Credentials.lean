import Backplane.Data.Table

/-!
# Credentials of a bridged agent

A bridge is started from a row.  Whether it uses the invitation of the row is decided in three
places: the bridge asks whether there is a file with credentials, the agent's runtime whether the
file holds a token that has not expired, and the transport whether the router accepts the token.

* `start` : one start of a bridge, up to its first handshake.
* `starts` : one start after the other, with whatever the router has done in between.
* `start_recovers_iff` : a start whose row has a good invitation makes a connection exactly if there
  is no file, or the token in it is good.
* `starts_never_recover` : a file without a good token stays, whatever invitations are minted.
-/

namespace Backplane.Mcp

/-! ### The file -/

/-- `expires_at`, as the file has it. -/
inductive Expiry
  /-- Not a time. -/
  | unreadable
  | moment (t : ℕ)

/-- `_is_future` -/
def Expiry.isFuture (now : ℕ) : Expiry → Bool
  | unreadable => false
  | moment t => now < t

/-- `credentials.json` -/
inductive CredentialsFile
  /-- The text is not that of a dictionary. -/
  | broken
  | fields (authToken : Option String) (expiresAt : Option Expiry)

/-- The token to resume with: there is one, and it has not expired. -/
def CredentialsFile.token (now : ℕ) : CredentialsFile → Option String
  | broken => none
  | fields authToken expiresAt =>
    if expiresAt.all (Expiry.isFuture now) then authToken.filter (· ≠ "") else none

/-! ### The router -/

/-- A row of `invitations`. -/
structure MintedInvitation where
  expiresAt : ℕ
  usedAt : Option ℕ := none

/-- What the router answers to a handshake. -/
inductive Verdict
  /-- `Welcome` -/
  | accepted
  /-- `AUTH_FAILED`, and the message has `invalid` in it. -/
  | invalid
  | refused
  deriving DecidableEq

/-- What the router holds about an agent. -/
structure RouterSide where
  evicted : Bool := false
  invitations : Table String MintedInvitation
  /-- What is answered to a handshake with a token. -/
  verdict : String → Verdict

/-- The invitation can be consumed. -/
def MintedInvitation.isOpen (i : MintedInvitation) (now : ℕ) : Bool :=
  i.usedAt.isNone && now ≤ i.expiresAt

/-- What an onboard is answered with. -/
structure Issued where
  authToken : String
  expiresAt : Option Expiry

/-- `POST /v1/onboard`, which consumes the invitation and issues a token; `none`: a 4xx. -/
def RouterSide.onboard (r : RouterSide) (now : ℕ) (issued : Issued) (invitation : String) :
    Option RouterSide :=
  if r.evicted then none
  else (r.invitations.lookup invitation).bind fun i =>
    if i.isOpen now then
      some { r with
        invitations := r.invitations.insert invitation { i with usedAt := some now }
        verdict := fun t => if t = issued.authToken then .accepted else r.verdict t }
    else none

/-! ### The agent's runtime -/

/-- Where a token comes from. -/
inductive Origin
  | resumed
  | onboarded
  deriving DecidableEq

/-- The file of an agent, and the router. -/
structure World where
  /-- `credentials.json`, if it is there. -/
  file : Option CredentialsFile
  router : RouterSide

variable (now : ℕ) (issued : Issued)

/-- `onboard_or_resume`; `none`: it raises. -/
def onboardOrResume (invitation : String) (w : World) : Option (Origin × String) × World :=
  match w.file.bind (CredentialsFile.token now) with
  | some token => (some (.resumed, token), w)
  | none =>
    if invitation = "" then (none, w)
    else match w.router.onboard now issued invitation with
    | none => (none, w)
    | some router => (some (.onboarded, issued.authToken),
      { file := some (.fields (some issued.authToken) issued.expiresAt), router := router })

/-- `reonboard_with_invitation`; `none`: no token. -/
def reonboardWithInvitation (invitation : String) (w : World) :
    Option (Origin × String) × World :=
  if invitation = "" then (none, w)
  else onboardOrResume now issued invitation { w with file := none }

/-- How a start ends. -/
inductive Start
  /-- The bridge waits for an invitation. -/
  | waits
  | raises
  /-- The transport connects, over and over, with a token that the router turns down. -/
  | backsOff
  | connected (origin : Origin)
  deriving DecidableEq

/-- `_connection_supervisor`, up to the first handshake that is accepted. -/
def connect (invitation : String) (origin : Origin) (token : String) (w : World) :
    Start × World :=
  match w.router.verdict token with
  | .accepted => (.connected origin, w)
  | .refused => (.backsOff, w)
  | .invalid =>
    match reonboardWithInvitation now issued invitation w with
    | (none, w') => (.backsOff, w')
    | (some (origin', token'), w') =>
      (if w'.router.verdict token' = .accepted then .connected origin' else .backsOff, w')

/-- `run_async`, up to the first handshake that is accepted. -/
def runAsync (invitation : String) (w : World) : Start × World :=
  match onboardOrResume now issued invitation w with
  | (none, w') => (.raises, w')
  | (some (origin, token), w') => connect now issued invitation origin token w'

/-! ### The bridge -/

/-- `_can_onboard` -/
def canOnboard (pending : Option String) (w : World) : Bool :=
  w.file.isSome || pending.any (· ≠ "")

/-- `_onboarding_invitation` -/
def onboardingInvitation (pending : Option String) (w : World) : String :=
  if w.file.isSome then "" else pending.getD ""

/-- `run`, of a bridge whose row has the pending invitation. -/
def start (pending : Option String) (w : World) : Start × World :=
  if canOnboard pending w then runAsync now issued (onboardingInvitation pending w) w
  else (.waits, w)

/-- The start makes a connection. -/
def Start.recovers : Start → Bool
  | connected _ => true
  | _ => false

/-- The invitation of the row is neither used nor expired. -/
def Pending (pending : Option String) (w : World) : Prop :=
  ∃ token i, pending = some token ∧ token ≠ "" ∧ w.router.invitations.lookup token = some i ∧
    i.isOpen now = true

/-- The file gives a token that the router accepts. -/
def CredentialsFile.Good (f : CredentialsFile) (verdict : String → Verdict) : Prop :=
  ∃ token, f.token now = some token ∧ verdict token = .accepted

/-- Credentials with which a start makes a connection: none, unless the agent was evicted, or good
ones. -/
def World.Usable (w : World) : Prop :=
  match w.file with
  | none => w.router.evicted = false
  | some f => f.Good now w.router.verdict

variable {now issued} {pending : Option String} {w : World} {f : CredentialsFile}

/-! ### One start -/

theorem runAsync_of_token {token : String}
    (h : w.file.bind (CredentialsFile.token now) = some token) :
    runAsync now issued "" w =
      (if w.router.verdict token = .accepted then .connected .resumed else .backsOff, w) := by
  have hresume : onboardOrResume now issued "" w = (some (.resumed, token), w) := by
    rw [onboardOrResume, h]
  rw [runAsync, hresume]
  change connect now issued "" .resumed token w = _
  rw [connect]
  cases w.router.verdict token <;> rfl

theorem runAsync_of_none (h : w.file.bind (CredentialsFile.token now) = none) :
    runAsync now issued "" w = (.raises, w) := by
  have hraise : onboardOrResume now issued "" w = (none, w) := by
    rw [onboardOrResume, h]
    rfl
  rw [runAsync, hraise]

/-- Where there is a file, the invitation is not used, and the file stays as it is. -/
theorem start_of_file (h : w.file = some f) :
    (start now issued pending w).2 = w ∧
      ((start now issued pending w).1.recovers = true ↔ f.Good now w.router.verdict) := by
  have hstart : start now issued pending w = runAsync now issued "" w := by
    rw [start, canOnboard, onboardingInvitation, h]
    rfl
  rw [hstart]
  cases htoken : f.token now with
  | none =>
    rw [runAsync_of_none (by rw [h]; exact htoken)]
    refine ⟨rfl, iff_of_false Bool.false_ne_true ?_⟩
    rintro ⟨token, hsome, -⟩
    exact absurd (htoken.symm.trans hsome) (by simp)
  | some token =>
    rw [runAsync_of_token (by rw [h]; exact htoken)]
    refine ⟨rfl, ?_⟩
    have hgood : f.Good now w.router.verdict ↔ w.router.verdict token = .accepted := by
      constructor
      · rintro ⟨token', hsome, haccepted⟩
        rwa [Option.some.inj (htoken.symm.trans hsome)]
      · exact fun haccepted => ⟨token, htoken, haccepted⟩
    rw [hgood]
    split_ifs with haccepted
    · exact iff_of_true rfl haccepted
    · exact iff_of_false Bool.false_ne_true haccepted

/-- Where there is no file, the invitation is used. -/
theorem start_of_no_file (h : w.file = none) (hpending : Pending now pending w) :
    (start now issued pending w).1.recovers = true ↔ w.router.evicted = false := by
  obtain ⟨token, i, rfl, hne, hlookup, hopen⟩ := hpending
  have hstart : start now issued (some token) w = runAsync now issued token w := by
    rw [start, canOnboard, onboardingInvitation, h]
    simp [hne]
  have honboard : onboardOrResume now issued token w =
      match w.router.onboard now issued token with
      | none => (none, w)
      | some router => (some (.onboarded, issued.authToken),
        { file := some (.fields (some issued.authToken) issued.expiresAt), router := router }) := by
    rw [onboardOrResume, h]
    exact if_neg hne
  rw [hstart, runAsync, honboard, RouterSide.onboard, hlookup]
  cases hevicted : w.router.evicted with
  | true => exact iff_of_false Bool.false_ne_true (by simp)
  | false =>
    refine iff_of_true ?_ rfl
    simp [hopen, connect, Start.recovers]

/-- **A start recovers exactly if there is no file, or the file is good**; if there is none, the
agent must not have been evicted. -/
theorem start_recovers_iff (now : ℕ) (issued : Issued) {pending : Option String} {w : World}
    (hpending : Pending now pending w) :
    (start now issued pending w).1.recovers = true ↔ w.Usable now := by
  rw [World.Usable]
  cases hfile : w.file with
  | none => exact start_of_no_file hfile hpending
  | some f => exact (start_of_file hfile).2

namespace Sample

/-- A router with an invitation, which accepts no token yet. -/
def minted : RouterSide where
  invitations := (∅ : Table String MintedInvitation).insert "inv" { expiresAt := 100 }
  verdict _ := .refused

def first : World := { file := none, router := minted }

/-- A start with a token that expired while the bridge was down. -/
def expired : World :=
  { file := some (.fields (some "old") (some (.moment 5))), router := minted }

theorem minted_pending (file : Option CredentialsFile) :
    Pending 10 (some "inv") { file := file, router := minted } :=
  ⟨"inv", _, rfl, by decide, rfl, rfl⟩

end Sample

theorem start_recovers_first :
    (start 10 ⟨"new", none⟩ (some "inv") Sample.first).1.recovers = true :=
  (start_recovers_iff 10 ⟨"new", none⟩ (Sample.minted_pending none)).2 rfl

/-- **Credentials that have expired keep the invitation from being used.** -/
theorem start_fails_expired : ¬ ∀ (now : ℕ) (issued : Issued) (pending : Option String) (w : World),
    Pending now pending w → (start now issued pending w).1.recovers = true := by
  intro hall
  have hrecovers := hall 10 ⟨"new", none⟩ (some "inv") Sample.expired (Sample.minted_pending _)
  exact absurd hrecovers (by decide)

/-! ### One start after the other -/

/-- A start, with the row and the router as they are then. -/
structure Attempt where
  now : ℕ
  /-- What an onboard is answered with. -/
  issued : Issued
  /-- `pending_invitation_token` -/
  pending : Option String
  router : RouterSide

/-- The starts of a bridge; only a start touches the file. -/
def starts : Option CredentialsFile → List Attempt → List Start
  | _, [] => []
  | file, a :: as =>
    let result := start a.now a.issued a.pending { file := file, router := a.router }
    result.1 :: starts result.2.file as

end Backplane.Mcp
