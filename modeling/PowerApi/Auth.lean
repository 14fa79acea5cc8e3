import PowerApi.Msg

/-!
# Control authority (`comservice.c`)

The server grants control authority to at most one client: `g_authed` says
whether it is granted, `g_authOwner` to whom.
-/

namespace PowerApi

/-- `g_authed` and `g_authOwner`. -/
structure Auth where
  authed : Bool
  authOwner : UInt32
  deriving DecidableEq, Repr

namespace Auth

/-- Nobody has the authority. -/
def init : Auth := ⟨false, 0⟩

/-- `DoAuthRequest`. -/
def doAuthRequest (a : Auth) (client : UInt32) : RtnCode × Auth :=
  if a.authed then
    if a.authOwner ≠ client then (.errControlAuthRequested, a) else (.success, a)
  else (.success, { authOwner := client, authed := true })

/-- `DoAuthRelease`. -/
def doAuthRelease (a : Auth) (client : UInt32) : RtnCode × Auth :=
  if a.authed ∧ a.authOwner = client then (.success, { authOwner := 0, authed := false })
  else if ¬ a.authed then (.success, { a with authOwner := 0 })
  else (.errControlAuthOwneredByOthers, a)

/-- `CleanControlAuth`. -/
def cleanControlAuth (a : Auth) (client : UInt32) : Auth := (a.doAuthRelease client).2

/-- The authority is granted, and to this client. -/
def Owns (a : Auth) (client : UInt32) : Prop := a.authed = true ∧ a.authOwner = client

instance (a : Auth) (client : UInt32) : Decidable (a.Owns client) := by
  unfold Owns
  infer_instance

theorem Owns.unique {a : Auth} {c d : UInt32} (hc : a.Owns c) (hd : a.Owns d) : c = d :=
  hc.2.symm.trans hd.2

/-- A request is answered with success exactly when it leaves the client the owner. -/
theorem doAuthRequest_success {a : Auth} {c : UInt32} :
    (a.doAuthRequest c).1 = .success ↔ (a.doAuthRequest c).2.Owns c := by
  unfold doAuthRequest Owns
  split <;> rename_i ha
  · split <;> rename_i ho
    · simp [ha, ho]
    · simpa [ha] using ho
  · simp

/-- A request takes the authority from nobody. -/
theorem Owns.doAuthRequest {a : Auth} {c d : UInt32} (h : a.Owns d) :
    (a.doAuthRequest c).2.Owns d := by
  unfold Auth.doAuthRequest
  rw [if_pos h.1]
  split <;> exact h

/-- The only client a request can make the owner is the one that asks. -/
theorem owns_of_doAuthRequest {a : Auth} {c d : UInt32} (h : (a.doAuthRequest c).2.Owns d) :
    a.Owns d ∨ d = c := by
  unfold Auth.doAuthRequest at h
  split at h
  · split at h <;> exact .inl h
  · exact .inr h.2.symm

/-- After a release the client does not have the authority. -/
theorem not_owns_doAuthRelease (a : Auth) (c : UInt32) : ¬ (a.doAuthRelease c).2.Owns c := by
  unfold Auth.doAuthRelease
  split
  · simp [Owns]
  · rename_i h
    split
    · rename_i ha
      simp [Owns, ha]
    · exact h

/-- A release takes the authority from no other client. -/
theorem owns_doAuthRelease_iff {a : Auth} {c d : UInt32} (hne : d ≠ c) :
    (a.doAuthRelease c).2.Owns d ↔ a.Owns d := by
  unfold Auth.doAuthRelease
  split
  · rename_i h
    constructor
    · intro hd
      exact absurd hd.1 (by simp)
    · intro hd
      exact absurd (hd.unique h) hne
  · split
    · rename_i ha
      simp [Owns, ha]
    · exact Iff.rfl

/-- A release makes nobody the owner. -/
theorem owns_of_doAuthRelease {a : Auth} {c d : UInt32} (h : (a.doAuthRelease c).2.Owns d) :
    a.Owns d := by
  by_cases hdc : d = c
  · subst hdc
    exact absurd h (not_owns_doAuthRelease a d)
  · exact (owns_doAuthRelease_iff hdc).mp h

end Auth

end PowerApi
