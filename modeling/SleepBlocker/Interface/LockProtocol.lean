import SleepBlocker.Computation.Machine
import SleepBlocker.Model.Inhibit

/-!
# What the two locks are for

Two accounts of the calls that leave the process. The `ledger` is the services' own: it
counts every descriptor and cookie outstanding, accepts a release only of something that
is outstanding, and forbids nothing else. The `protocol` is the purpose of the component:
the screen lock is an add-on to the sleep lock, so its states `Holding` are nothing, a
descriptor, or a descriptor and a cookie, and a cookie without a descriptor cannot be
written down. `protocol_run_ledger` says that calls which follow the protocol keep the
ledger disciplined after every single one of them.
-/

set_option autoImplicit false

namespace SleepBlocker.Interface

open SleepBlocker.Computation SleepBlocker.Model

/-- What is outstanding at the services. -/
structure Ledger where
  descriptors : List Fd := []
  cookies : List Cookie := []
  deriving DecidableEq, Repr

/-- The services' books: a grant adds, a release takes back something outstanding. -/
def ledger : Machine Ledger Effect where
  step b
    | .inhibit answer => some { b with descriptors := answer.grant.toList ++ b.descriptors }
    | .close fd =>
      if fd ∈ b.descriptors then some { b with descriptors := b.descriptors.erase fd } else none
    | .screenInhibit answer => some { b with cookies := answer.grant.toList ++ b.cookies }
    | .unInhibit cookie =>
      if cookie ∈ b.cookies then some { b with cookies := b.cookies.erase cookie } else none

/-- At most one descriptor and one cookie, and a cookie only beside a descriptor. -/
def Disciplined (b : Ledger) : Prop :=
  (b.cookies ≠ [] → b.descriptors ≠ []) ∧ b.descriptors.length ≤ 1 ∧ b.cookies.length ≤ 1

/-- What a process that follows the protocol holds. -/
inductive Holding where
  | nothing
  | sleep (fd : Fd)
  | sleepAndScreen (fd : Fd) (cookie : Cookie)
  deriving DecidableEq, Repr

/-- The lock protocol: sleep first, the screen lock only on top of it, and the releases
the other way round. -/
def protocol : Machine Holding Effect where
  step
    | .nothing, .inhibit answer => some (answer.grant.elim .nothing .sleep)
    | .sleep fd, .close fd' => if fd' = fd then some .nothing else none
    | .sleep fd, .screenInhibit answer =>
      some (answer.grant.elim (.sleep fd) (.sleepAndScreen fd))
    | .sleepAndScreen fd cookie, .unInhibit cookie' =>
      if cookie' = cookie then some (.sleep fd) else none
    | _, _ => none

/-- The books of a holding. -/
def Holding.books : Holding → Ledger
  | .nothing => {}
  | .sleep fd => { descriptors := [fd] }
  | .sleepAndScreen fd cookie => { descriptors := [fd], cookies := [cookie] }

/-- A process that follows the protocol holds at most one lock of each kind, and the screen's
only beside the other. -/
theorem Holding.disciplined (h : Holding) : Disciplined h.books := by
  cases h <;> simp [Holding.books, Disciplined]

/-- Every step of the protocol is one the ledger accepts. -/
theorem protocol_step_ledger {h k : Holding} {e : Effect} (hs : protocol.step h e = some k) :
    ledger.step h.books e = some k.books := by
  cases h <;> cases e <;> simp only [protocol, reduceCtorEq, Option.some.injEq] at hs
  case nothing.inhibit answer =>
    subst hs
    cases ha : answer.grant <;> simp [ledger, Holding.books, ha]
  case sleep.close fd fd' =>
    split at hs <;> cases hs
    simp_all [ledger, Holding.books]
  case sleep.screenInhibit fd answer =>
    subst hs
    cases ha : answer.grant <;> simp [ledger, Holding.books, ha]
  case sleepAndScreen.unInhibit fd cookie cookie' =>
    split at hs <;> cases hs
    simp_all [ledger, Holding.books]

/-- Calls that follow the protocol are accepted by the ledger, which is disciplined after
every single one of them. -/
theorem protocol_run_ledger {h k : Holding} {l : List Effect} (hr : protocol.run h l = some k) :
    ledger.run h.books l = some k.books ∧ ledger.Everywhere Disciplined h.books l := by
  induction l generalizing h with
  | nil =>
      simp only [Machine.run_nil, Option.some.injEq] at hr
      subst hr
      exact ⟨rfl, h.disciplined⟩
  | cons e l ih =>
      obtain ⟨m, hm, hr⟩ := Machine.run_cons_eq_some.mp hr
      obtain ⟨hl, hall⟩ := ih hr
      have hstep := protocol_step_ledger hm
      refine ⟨Machine.run_cons_eq_some.mpr ⟨m.books, hstep, hl⟩, h.disciplined, ?_⟩
      intro t ht
      rw [hstep, Option.some.injEq] at ht
      exact ht ▸ hall

/-- Whether the call grants this cookie. -/
def Effect.grants (cookie : Cookie) : Effect → Bool
  | .screenInhibit answer => answer.grant == some cookie
  | _ => false

/-- The accounts of one cookie value: what was granted is what was handed back and what is
outstanding. -/
theorem ledger_accounts {b c : Ledger} {l : List Effect} (hr : ledger.run b l = some c)
    (cookie : Cookie) :
    b.cookies.count cookie + l.countP (Effect.grants cookie) =
      c.cookies.count cookie + l.count (.unInhibit cookie) := by
  induction l generalizing b with
  | nil =>
      simp only [Machine.run_nil, Option.some.injEq] at hr
      subst hr
      simp
  | cons e l ih =>
      obtain ⟨m, hm, hr⟩ := Machine.run_cons_eq_some.mp hr
      have ih := ih hr
      cases e with
      | inhibit answer =>
          simp only [ledger, Option.some.injEq] at hm
          subst hm
          simpa [Effect.grants] using ih
      | close fd =>
          simp only [ledger] at hm
          split at hm <;> cases hm
          simpa [Effect.grants] using ih
      | screenInhibit answer =>
          simp only [ledger, Option.some.injEq] at hm
          subst hm
          cases ha : answer.grant with
          | none => simpa [Effect.grants, ha] using ih
          | some cookie' =>
              simp only [ha, Option.toList_some, List.cons_append, List.nil_append,
                List.count_cons, List.countP_cons, Effect.grants, beq_iff_eq] at ih ⊢
              by_cases hc : cookie' = cookie
              · simp_all
                omega
              · simp_all
      | unInhibit cookie' =>
          simp only [ledger] at hm
          split at hm <;> cases hm
          rename_i hmem
          by_cases hc : cookie' = cookie
          · subst hc
            have hpos := List.count_pos_iff.mpr hmem
            simp only [List.count_erase_self, List.countP_cons, List.count_cons_self,
              Effect.grants, Bool.false_eq_true, if_false] at ih ⊢
            omega
          · rw [List.count_erase_of_ne (Ne.symm hc)] at ih
            simpa [Effect.grants, hc] using ih

end SleepBlocker.Interface
