import Mathlib.Logic.Relation
/-!
# Systems that take one step at a time

A system is a partial function from a state and an event to the next state, `none`
where the event is not possible. Events of all its parties come in any order.
-/

namespace Silo.Lib

variable {σ ε : Type} {step : σ → ε → Option σ} {allowed : σ → ε → Prop} {P : σ → Prop} {s s' : σ}

/-- The states reached from `start` by events that are `allowed` where they happen. -/
def ReachesBy (step : σ → ε → Option σ) (allowed : σ → ε → Prop) (start : σ) : σ → Prop :=
  Relation.ReflTransGen (fun s s' => ∃ e, allowed s e ∧ step s e = some s') start

/-- The states reached from `start` by any events. -/
def Reaches (step : σ → ε → Option σ) (start : σ) : σ → Prop := ReachesBy step (fun _ _ => True) start

theorem ReachesBy.invariant (h : ReachesBy step allowed s s')
    (hstep : ∀ t t' e, P t → allowed t e → step t e = some t' → P t') (hs : P s) : P s' := by
  unfold ReachesBy at h
  induction h with
  | refl => exact hs
  | tail _ hlast ih =>
    obtain ⟨e, hallowed, he⟩ := hlast
    exact hstep _ _ e ih hallowed he

theorem Reaches.invariant (h : Reaches step s s') (hstep : ∀ t t' e, P t → step t e = some t' → P t') (hs : P s) :
    P s' :=
  ReachesBy.invariant h (fun t t' e ht _ => hstep t t' e ht) hs

def runSteps (step : σ → ε → Option σ) : List ε → σ → Option σ
  | [], s => some s
  | e :: es, s => (step s e).bind (runSteps step es)

def AllAllowed (step : σ → ε → Option σ) (allowed : σ → ε → Prop) : List ε → σ → Prop
  | [], _ => True
  | e :: es, s => allowed s e ∧ ∀ t ∈ step s e, AllAllowed step allowed es t

theorem reachesBy_runSteps : ∀ (events : List ε) {s s' : σ}, AllAllowed step allowed events s →
    runSteps step events s = some s' → ReachesBy step allowed s s'
  | [], _, _, _, h => by
    cases h
    exact .refl
  | e :: es, s, s', hall, h => by
    obtain ⟨t, ht, hrest⟩ := Option.bind_eq_some_iff.1 h
    exact .head ⟨e, hall.1, ht⟩ (reachesBy_runSteps es (hall.2 t ht) hrest)

theorem reaches_runSteps (events : List ε) (h : runSteps step events s = some s') : Reaches step s s' := by
  have hall : ∀ (es : List ε) (t : σ), AllAllowed step (fun _ _ => True) es t := by
    intro es
    induction es with
    | nil => exact fun _ => trivial
    | cons e es ih => exact fun _ => ⟨trivial, fun u _ => ih u⟩
  exact reachesBy_runSteps events (hall events s) h

end Silo.Lib
