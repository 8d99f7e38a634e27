import DelegateSafety.Proofs.Invariant
import DelegateSafety.Proofs.Lockstep

/-! # What a check is shown of a path

Any check can be made to remember the calls made of it on each path (`PathCheck.traced`). The
exploration is the same (`explore_traced`), and a path with its calls says what its state is
(`replay`), so that a property of all explored paths becomes one of lists of calls (`History`).
-/
namespace DelegateSafety

variable {σ ρ : Type}

inductive Callback where
  | beforeEffect (site : Site) (e : Expr)
  | afterSend (site : Site) (event : SendEvent)
  | assume (subject : Subject) (cond : Expr) (truth : Bool)
  | atEnd (site : Site)

namespace Callback

def isAssume : Callback → Bool
  | assume _ _ _ => true
  | beforeEffect _ _ | afterSend _ _ | atEnd _ => false

def isEnd : Callback → Bool
  | atEnd _ => true
  | beforeEffect _ _ | afterSend _ _ | assume _ _ _ => false

/-- A call that the exploration of a method makes about expressions from a given stock. -/
def Fits (frame : Frame) (inside : Expr → Prop) : Callback → Prop
  | beforeEffect site e => site.frame = frame ∧ inside e
  | afterSend site event => site.frame = frame ∧ inside event.expr ∧
      (∃ range, event.expr = .send event.message range) ∧
      event.definition = frame.scope.definition? event.message
  | assume subject cond _ => subject = frame.subject ∧ inside cond
  | atEnd site => site.frame = frame

end Callback

/-- The calls made along a path of a method. A condition is never what a path begins with. -/
structure History (frame : Frame) (inside : Expr → Prop) (made : List Callback) : Prop where
  fits : ∀ call ∈ made, call.Fits frame inside
  opened : ∀ call ∈ made.head?, call.isAssume = false

namespace History

variable {frame : Frame} {inside : Expr → Prop} {made : List Callback}

theorem nil : History frame inside [] := ⟨by simp, by simp⟩

theorem concat (h : History frame inside made) {call : Callback} (hFits : call.Fits frame inside)
    (hOpened : made = [] → call.isAssume = false) : History frame inside (made ++ [call]) := by
  constructor
  · intro other hOther
    rcases List.mem_append.mp hOther with hOther | hOther
    · exact h.fits other hOther
    · exact List.mem_singleton.mp hOther ▸ hFits
  · cases made with
    | nil => simpa using hOpened rfl
    | cons first rest => exact h.opened

theorem of_isPrefix (h : History frame inside made) {before : List Callback}
    (hBefore : before <+: made) : History frame inside before := by
  obtain ⟨after, rfl⟩ := hBefore
  refine ⟨fun call hCall => h.fits call (List.mem_append_left _ hCall), ?_⟩
  cases before with
  | nil => simp
  | cons first rest => exact h.opened

end History

namespace PathCheck

variable (check : PathCheck σ ρ)

def answer : Callback → σ → σ × List ρ
  | .beforeEffect site e, s => check.beforeEffect site s e
  | .afterSend site event, s => check.afterSend site s event
  | .assume subject cond truth, s => (check.assume subject s cond truth, [])
  | .atEnd site, s => check.atEnd site s

def replay (made : List Callback) : σ := made.foldl (fun s call => (check.answer call s).1) check.start

@[simp] theorem replay_nil : check.replay [] = check.start := rfl

@[simp] theorem replay_concat (made : List Callback) (call : Callback) :
    check.replay (made ++ [call]) = (check.answer call (check.replay made)).1 := by
  simp [replay]

end PathCheck

/-- A check's state together with the calls that led to it. -/
structure Traced (σ ρ : Type) where
  made : List Callback
  state : σ
  /-- What the last call filed. -/
  filed : List ρ

namespace Traced

def extend (check : PathCheck σ ρ) (t : Traced σ ρ) (call : Callback) : Traced σ ρ :=
  ⟨t.made ++ [call], (check.answer call t.state).1, (check.answer call t.state).2⟩

def start (check : PathCheck σ ρ) : Traced σ ρ := ⟨[], check.start, []⟩

structure Explained (check : PathCheck σ ρ) (frame : Frame) (inside : Expr → Prop)
    (t : Traced σ ρ) : Prop where
  history : History frame inside t.made
  state : t.state = check.replay t.made

theorem explained_start (check : PathCheck σ ρ) (frame : Frame) (inside : Expr → Prop) :
    Explained check frame inside (start check) :=
  ⟨.nil, rfl⟩

theorem Explained.extend {check : PathCheck σ ρ} {frame : Frame} {inside : Expr → Prop}
    {t : Traced σ ρ} (h : t.Explained check frame inside) {call : Callback}
    (hFits : call.Fits frame inside) (hOpened : t.made = [] → call.isAssume = false) :
    (t.extend check call).Explained check frame inside :=
  ⟨h.history.concat hFits hOpened, by simp [Traced.extend, h.state]⟩

theorem made_extend_ne_nil (check : PathCheck σ ρ) (t : Traced σ ρ) (call : Callback) :
    (t.extend check call).made ≠ [] := by
  simp [extend]

end Traced

/-- A path whose method has been left. -/
def Path.isEnded (p : Path (Traced σ ρ)) : Bool := p.state.made.getLast?.any (·.isEnd)

/-- The check that remembers the calls made of it and, at each, files how far the path has come. -/
def PathCheck.traced (check : PathCheck σ ρ) : PathCheck (Traced σ ρ) (Path (Traced σ ρ)) where
  start := .start check
  beforeEffect site t e :=
    let t := t.extend check (.beforeEffect site e)
    (t, [⟨site.path, site.store, t⟩])
  afterSend site t event :=
    let t := t.extend check (.afterSend site event)
    (t, [⟨site.path, site.store, t⟩])
  assume subject t cond truth := t.extend check (.assume subject cond truth)
  atEnd site t :=
    let t := t.extend check (.atEnd site)
    (t, [⟨site.path, site.store, t⟩])

section

variable (frame : Frame) (limits : Limits) (check : PathCheck σ ρ)

/-- Remembering the calls changes nothing. -/
theorem explore_traced :
    (explore frame limits check.traced).nextPath = (explore frame limits check).nextPath ∧
    (explore frame limits check.traced).forks = (explore frame limits check).forks ∧
    (explore frame limits check.traced).stats = (explore frame limits check).stats ∧
    (explore frame limits check.traced).reports.flatMap (·.state.filed) =
      (explore frame limits check).reports := by
  have hLockstep : Lockstep frame (fun _ => True) check.traced check (fun t s => t.state = s)
      (fun t s => t.state = s) (fun ps rs => ps.flatMap (·.state.filed) = rs) := {
    nil := rfl
    append := fun h h' => by rw [List.flatMap_append, h, h']
    start := rfl
    fresh := id
    beforeEffect := by
      rintro t _ n store e - rfl
      exact ⟨rfl, List.append_nil _⟩
    afterSend := by
      rintro t _ n store m r receiver args - rfl
      exact ⟨rfl, List.append_nil _⟩
    assumed := by
      rintro t _ cond truth - rfl
      rfl
    atEnd := by
      rintro t _ n store rfl
      exact List.append_nil _ }
  exact hLockstep.explore_alike limits fun _ _ _ _ => trivial

def Frame.exprs : List Expr := frame.method.body.elim [] Stmt.allExprs

/-- A path at the call by which it is shown. -/
structure Path.IsShown (p : Path (Traced σ ρ)) : Prop where
  history : History frame (· ∈ frame.exprs) p.state.made
  last : ∃ before call, p.state.made = before ++ [call] ∧
    (∀ site, call = .atEnd site → site = ⟨frame, p.id, p.store⟩) ∧
    p.state.state = (check.answer call (check.replay before)).1 ∧
    p.state.filed = (check.answer call (check.replay before)).2

theorem isShown_of_mem_traced {p : Path (Traced σ ρ)}
    (hp : p ∈ (explore frame limits check.traced).reports) : p.IsShown frame check := by
  -- A path that has been shown has made a call, which is why no condition comes first.
  let Good (t : Traced σ ρ) : Prop := t.Explained check frame (· ∈ frame.exprs)
  let Met (t : Traced σ ρ) : Prop := t.made ≠ [] ∧ Good t
  have hExtend : ∀ {t : Traced σ ρ} {call : Callback}, Good t → call.Fits frame (· ∈ frame.exprs) →
      (t.made = [] → call.isAssume = false) → Met (t.extend check call) :=
    fun hGood hFits hOpened => ⟨Traced.made_extend_ne_nil _ _ _, hGood.extend hFits hOpened⟩
  have hShow : ∀ {t : Traced σ ρ} {call : Callback} {n store}, Good t →
      Met (t.extend check call) → (∀ site, call = .atEnd site → site = ⟨frame, n, store⟩) →
      Path.IsShown frame check ⟨n, store, t.extend check call⟩ := by
    intro t call n store hGood hMet hSite
    refine ⟨hMet.2.history, t.made, call, rfl, hSite, ?_, ?_⟩ <;> rw [← hGood.state] <;> rfl
  have hLockstep : Lockstep frame (· ∈ frame.exprs) check.traced check.traced
      (fun s t => s = t ∧ Good t) (fun s t => s = t ∧ Met t)
      (fun ps _ => ∀ p ∈ ps, p.IsShown frame check) := {
    nil := by simp
    append := fun h h' => List.forall_mem_append.mpr ⟨h, h'⟩
    start := ⟨rfl, Traced.explained_start check frame _⟩
    fresh := fun ⟨hEq, _, hGood⟩ => ⟨hEq, hGood⟩
    beforeEffect := by
      rintro t _ n store e he ⟨rfl, hGood⟩
      have hMet : Met (t.extend check (.beforeEffect ⟨frame, n, store⟩ e)) :=
        hExtend hGood ⟨rfl, he⟩ fun _ => rfl
      exact ⟨⟨rfl, hMet⟩, List.forall_mem_singleton.mpr (hShow hGood hMet fun _ h => by cases h)⟩
    afterSend := by
      rintro t _ n store m r receiver args he ⟨rfl, -, hGood⟩
      have hMet : Met (t.extend check (.afterSend ⟨frame, n, store⟩
          ⟨.send m r, m, receiver, args, frame.scope.definition? m⟩)) :=
        hExtend hGood ⟨rfl, he, ⟨r, rfl⟩, rfl⟩ fun _ => rfl
      exact ⟨⟨rfl, hMet⟩, List.forall_mem_singleton.mpr (hShow hGood hMet fun _ h => by cases h)⟩
    assumed := by
      rintro t _ cond truth hCond ⟨rfl, hMade, hGood⟩
      exact ⟨rfl, hExtend hGood ⟨rfl, hCond⟩ fun hNil => absurd hNil hMade⟩
    atEnd := by
      rintro t _ n store ⟨rfl, hGood⟩
      have hMet : Met (t.extend check (.atEnd ⟨frame, n, store⟩)) :=
        hExtend hGood rfl fun _ => rfl
      refine List.forall_mem_singleton.mpr (hShow hGood hMet ?_)
      rintro _ ⟨rfl⟩
      rfl }
  refine (hLockstep.explore_alike limits fun body hBody e he => ?_).2.2.2 p hp
  rw [Frame.exprs, Option.mem_def.mp hBody]
  exact he

/-- Wherever a path is shown, its calls explain its state. -/
theorem explained_of_mem_traced {p : Path (Traced σ ρ)}
    (hp : p ∈ (explore frame limits check.traced).reports) :
    p.state.Explained check frame (· ∈ frame.exprs) := by
  obtain ⟨hHistory, before, call, hMade, -, hState, -⟩ := isShown_of_mem_traced frame limits check hp
  refine ⟨hHistory, ?_⟩
  rw [hState, hMade, PathCheck.replay_concat]

theorem ended_of_mem_traced {p : Path (Traced σ ρ)}
    (hp : p ∈ (explore frame limits check.traced).reports) (hEnded : p.isEnded = true) :
    ∃ before, p.state.made = before ++ [.atEnd ⟨frame, p.id, p.store⟩] ∧
      p.state.filed = (check.atEnd ⟨frame, p.id, p.store⟩ (check.replay before)).2 := by
  obtain ⟨-, before, call, hMade, hSite, -, hFiled⟩ := isShown_of_mem_traced frame limits check hp
  rw [Path.isEnded, hMade, List.getLast?_concat] at hEnded
  cases call with
  | beforeEffect _ _ | afterSend _ _ | assume _ _ _ => cases hEnded
  | atEnd site =>
    obtain rfl := hSite site rfl
    exact ⟨before, hMade, hFiled⟩

end

/-! ## Invariants of what is shown -/

section

variable {frame : Frame} {check : PathCheck σ ρ} {Shown Q : Path (Traced σ ρ) → Prop}

section

variable {Good : Nat → Traced σ ρ → Prop}
  (h : ∀ n store t call, Good n t → Shown ⟨n, store, t.extend check call⟩ →
    Good n (t.extend check call) ∧ Q ⟨n, store, t.extend check call⟩)

include h

theorem keeps_show (f : Site → Callback) :
    (PathM.consult frame fun site t =>
      (t.extend check (f site), [⟨site.path, site.store, t.extend check (f site)⟩])).Keeps
      Good Shown Q := by
  refine PathM.keeps_consult fun n store t hGood hShown => ?_
  obtain ⟨hNext, hHere⟩ := h n store t _ hGood (hShown _ List.mem_cons_self)
  exact ⟨hNext, List.forall_mem_singleton.mpr hHere⟩

theorem keeps_effect_traced (e : Expr) (values : List Nullness) :
    (effect frame check.traced e values).Keeps Good Shown Q :=
  PathM.keeps_effect (fun event => keeps_show h (.afterSend · event)) e values

theorem keeps_evaluate_traced (e : Expr) : (evaluate frame check.traced e).Keeps Good Shown Q :=
  PathM.keeps_evaluate (fun e => keeps_show h (.beforeEffect · e))
    (fun event => keeps_show h (.afterSend · event)) e

end

theorem invariant_traced {Good : Traced σ ρ → Prop} (hStart : Good (.start check))
    (h : ∀ n store t call, Good t → Shown ⟨n, store, t.extend check call⟩ →
      Good (t.extend check call) ∧ Q ⟨n, store, t.extend check call⟩)
    (hAssumed : ∀ t cond truth, Good t → Good (t.extend check (.assume frame.subject cond truth))) :
    Invariant frame check.traced Good Shown Q where
  start := hStart
  evaluates := keeps_evaluate_traced h
  assumed cond truth hGood := hAssumed _ cond truth hGood
  atEnd := keeps_show h .atEnd

end

end DelegateSafety
