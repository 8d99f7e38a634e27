import DelegateSafety.Proofs.Concrete
import DelegateSafety.Proofs.Origin
import DelegateSafety.Sample.Units

/-! # Values let go

With nil ignored, nothing is filed about a field whose object is known to be nil. A direct write and
the end of the teardown method look the field up; a release goes by the value that its receiver was
evaluated to, which is the field's own unless a written accessor came in between
(`evaluate_reads`).
-/
namespace DelegateSafety

open PathM

/-! ## Reading a field -/

/-- The field whose value an expression has: `_x`, or `self.x` through an accessor that nobody wrote. -/
def Frame.readsField? (frame : Frame) (e : Expr) : Option String :=
  match e.strip with
  | .field name _ => some name
  | .send m _ => frame.readField? m
  | _ => none

section

variable {σ ρ α β : Type}

/-- From a path nothing but a value comes, with the store left as it is. -/
structure PathM.Reads (m : PathM σ ρ α) (p : Path σ) (v : α) : Prop where
  value : (m p).value = v
  id : (m p).path.id = p.id
  store : (m p).path.store = p.store

namespace PathM

variable {p : Path σ}

theorem reads_pure (v : α) : (pure v : PathM σ ρ α).Reads p v := ⟨rfl, rfl, rfl⟩

theorem reads_readSlot {slot : Slot} {v : Nullness} (h : p.store.lookup slot = v) :
    (readSlot slot : PathM σ ρ _).Reads p v :=
  ⟨h, rfl, rfl⟩

theorem reads_consult (frame : Frame) (f : Site → σ → σ × List ρ) :
    (consult frame f).Reads p () :=
  ⟨rfl, rfl, rfl⟩

theorem Reads.bind {m : PathM σ ρ α} {f : α → PathM σ ρ β} {v : α} {w : β} (hm : m.Reads p v)
    (hf : (f v).Reads (m p).path w) : (m >>= f).Reads p w := by
  obtain ⟨rfl, hId, hStore⟩ := hm
  exact ⟨hf.value, hf.id.trans hId, hf.store.trans hStore⟩

theorem Reads.inOrder_singleton {m : PathM σ ρ α} {v : α} (hm : m.Reads p v) :
    (inOrder [m]).Reads p [v] :=
  hm.bind ((reads_pure []).bind (reads_pure [v]))

end PathM

variable (frame : Frame) (check : PathCheck σ ρ) (p : Path σ)

theorem evaluate_isSelf {e : Expr} (h : e.isSelf = true) :
    (evaluate frame check e).Reads p .nonNull := by
  induction e using Expr.inductionOn with
  | step e ih =>
    rw [evaluate_eq]
    cases e with
    | self r => exact (reads_pure []).bind ((reads_consult frame _).bind (reads_pure _))
    | paren inner r | cast _ inner r =>
      have hInner := ih inner List.mem_cons_self h
      exact hInner.inOrder_singleton.bind ((reads_consult frame _).bind (reads_pure _))
    | _ => cases h

theorem exists_of_readField?_eq_some {frame : Frame} {m : Message Expr} {field : String}
    (h : frame.readField? m = some field) :
    ∃ target selector, m = ⟨.object target, selector, []⟩ ∧ target.isSelf = true := by
  obtain ⟨hOnSelf, hArgs⟩ := Frame.of_readField? h
  obtain ⟨target, hTarget, hSelf⟩ := Frame.exists_target hOnSelf
  obtain ⟨receiver, selector, args⟩ := m
  obtain rfl : args = [] := hArgs
  cases receiver with
  | object object =>
    obtain rfl := Option.some.inj hTarget
    exact ⟨_, selector, rfl, hSelf⟩
  | named _ | super => cases hTarget

theorem evaluate_reads {e : Expr} {field : String} (h : frame.readsField? e = some field) :
    (evaluate frame check e).Reads p (p.store.lookup (.field field)) := by
  induction e using Expr.inductionOn with
  | step e ih =>
    rw [evaluate_eq]
    cases e with
    | field name r =>
      obtain rfl := Option.some.inj h
      exact (reads_pure []).bind ((reads_consult frame _).bind (reads_readSlot rfl))
    | paren inner r | cast _ inner r =>
      have hInner := ih inner List.mem_cons_self h
      exact hInner.inOrder_singleton.bind ((reads_consult frame _).bind (reads_pure _))
    | send m r =>
      have hRead : frame.readField? m = some field := h
      obtain ⟨target, selector, rfl, hSelf⟩ := exists_of_readField?_eq_some hRead
      have hTarget := (evaluate_isSelf frame check p hSelf).inOrder_singleton
      have hEffect : (sendEffect frame ⟨.object target, selector, []⟩ .nonNull [] : PathM σ ρ _) =
          readSlot (.field field) := by
        rw [sendEffect, if_neg (by decide), hRead]
      have hValue := congrArg (·.lookup (.field field)) hTarget.store
      refine hTarget.bind ((reads_consult frame _).bind (Reads.bind ?_
        ((reads_consult frame _).bind (reads_pure _))))
      exact hEffect ▸ reads_readSlot hValue
    | _ => cases h

theorem operands_read {e : Expr} {field : String} (h : frame.readsField? e = some field) :
    ∃ values, (inOrder (e.operands.map (evaluate frame check))).Reads p values := by
  cases e with
  | field name r => exact ⟨[], reads_pure []⟩
  | paren inner r | cast _ inner r =>
    have hInner : frame.readsField? inner = some field := h
    exact ⟨_, (evaluate_reads frame check p hInner).inOrder_singleton⟩
  | send m r =>
    obtain ⟨target, selector, rfl, hSelf⟩ := exists_of_readField?_eq_some h
    exact ⟨_, (evaluate_isSelf frame check p hSelf).inOrder_singleton⟩
  | _ => cases h

end

/-! ## The calls around a send -/

section

variable {σ ρ : Type} {frame : Frame} {check : PathCheck σ ρ}

def Remembers (call : Callback) (t : Traced σ ρ) : Prop := call ∈ t.made

theorem Remembers.extend {call : Callback} {t : Traced σ ρ} (h : Remembers call t)
    (other : Callback) : Remembers call (t.extend check other) :=
  List.mem_append_left _ h

theorem evaluate_remembers (call : Callback) (e : Expr) :
    (evaluate frame check.traced e).Keeps (fun _ => Remembers call) (fun _ => True)
      (fun _ => True) :=
  keeps_evaluate_traced (fun _ _ _ other h _ => ⟨h.extend other, trivial⟩) e

theorem effect_remembers (call : Callback) (e : Expr) (values : List Nullness) :
    (effect frame check.traced e values).Keeps (fun _ => Remembers call) (fun _ => True)
      (fun _ => True) :=
  keeps_effect_traced (fun _ _ _ other h _ => ⟨h.extend other, trivial⟩) e values

/-- An expression that reads a field is announced with the store that it is read from. -/
theorem evaluate_reads_announced {e : Expr} {field : String} (h : frame.readsField? e = some field)
    (p : Path (Traced σ ρ)) :
    Remembers (.beforeEffect ⟨frame, p.id, p.store⟩ e)
      (evaluate frame check.traced e p).path.state := by
  obtain ⟨values, -, hId, hStore⟩ := operands_read frame check.traced p h
  rw [evaluate_eq]
  refine (effect_remembers _ e _ _ ?_ fun _ _ => trivial).1
  rw [← hId, ← hStore]
  exact List.mem_append_right _ List.mem_cons_self

/-- The receiver of a send has the value that a field had when it was read. The field still has it
when the send is made, unless arguments were evaluated in between. -/
structure ReceiverRead (made : List Callback) (last : Site) (event : SendEvent) (receiver : Expr)
    (field : String) : Prop where
  read : ∃ site, .beforeEffect site receiver ∈ made ∧
    site.store.lookup (.field field) = event.receiver
  kept : event.message.args = [] → last.store.lookup (.field field) = event.receiver

/-- The calls that lead up to a send: the last announces it, and if its receiver reads a field, the
others tell what was read. -/
def SendMade (frame : Frame) (made : List Callback) (event : SendEvent) : Prop :=
  ∃ earlier last, made = earlier ++ [.beforeEffect last event.expr] ∧
    ∀ receiver field, event.message.target? = some receiver →
      frame.readsField? receiver = some field → ReceiverRead earlier last event receiver field

theorem sendEffect_quiet (m : Message Expr) (receiver : Nullness) (args : List Nullness)
    (p : Path σ) :
    ((sendEffect frame m receiver args : PathM σ ρ _) p).reports = [] ∧
      ((sendEffect frame m receiver args : PathM σ ρ _) p).path.state = p.state := by
  unfold sendEffect
  split
  · exact ⟨rfl, rfl⟩
  · cases frame.readField? m <;> exact ⟨rfl, rfl⟩

theorem made_of_mem_evaluateSend {e : Expr} {m : Message Expr} {values : List Nullness}
    {p d : Path (Traced σ ρ)} (hd : d ∈ (evaluateSend frame check.traced e m values p).reports) :
    ∃ site, d.state.made = p.state.made ++ [.afterSend site
      ⟨e, m, (splitOperands m values).1, (splitOperands m values).2, frame.scope.definition? m⟩] := by
  let effect : PathM (Traced σ ρ) (Path (Traced σ ρ)) Nullness :=
    sendEffect frame m (splitOperands m values).1 (splitOperands m values).2
  obtain ⟨hQuiet, hState⟩ : (effect p).reports = [] ∧ (effect p).path.state = p.state :=
    sendEffect_quiet m _ _ p
  rcases List.mem_append.mp hd with hEffect | hSend
  · cases (hQuiet ▸ hEffect : d ∈ [])
  · obtain rfl := List.mem_singleton.mp hSend
    refine ⟨⟨frame, (effect p).path.id, (effect p).path.store⟩, ?_⟩
    rw [← hState]
    rfl

theorem made_of_mem_evaluate_send {m : Message Expr} {r : SourceRange} {p d : Path (Traced σ ρ)}
    (hd : d ∈ (evaluate frame check.traced (.send m r) p).reports) :
    let operands := inOrder (m.operands.map (evaluate frame check.traced)) p
    let announced := operands.path.state.made ++
      [.beforeEffect ⟨frame, operands.path.id, operands.path.store⟩ (.send m r)]
    d ∈ operands.reports ∨ d.state.made = announced ∨
      ∃ site, d.state.made = announced ++ [.afterSend site
        ⟨.send m r, m, (splitOperands m operands.value).1, (splitOperands m operands.value).2,
          frame.scope.definition? m⟩] := by
  intro operands announced
  rw [evaluate_eq] at hd
  rcases List.mem_append.mp hd with hOperands | hItself
  · exact .inl hOperands
  · rcases List.mem_append.mp hItself with hBefore | hAfter
    · obtain rfl := List.mem_singleton.mp hBefore
      exact .inr (.inl rfl)
    · exact .inr (.inr (made_of_mem_evaluateSend hAfter))

theorem sendMade_evaluate (m : Message Expr) (r : SourceRange) (p : Path (Traced σ ρ)) :
    let operands := inOrder (m.operands.map (evaluate frame check.traced)) p
    let last : Site := ⟨frame, operands.path.id, operands.path.store⟩
    SendMade frame (operands.path.state.made ++ [.beforeEffect last (.send m r)])
      ⟨.send m r, m, (splitOperands m operands.value).1, (splitOperands m operands.value).2,
        frame.scope.definition? m⟩ := by
  intro operands last
  obtain ⟨receiver, selector, args⟩ := m
  refine ⟨_, last, rfl, fun object field hObject hReads => ?_⟩
  cases receiver with
  | object target =>
    obtain rfl := Option.some.inj hObject
    have hTarget := evaluate_reads frame check.traced p hReads
    -- The arguments may bind the field anew, but what was announced before them stays announced.
    have hArgs : (inOrder (args.map (evaluate frame check.traced))).Keeps
        (fun _ => Remembers (.beforeEffect ⟨frame, p.id, p.store⟩ target)) (fun _ => True)
        (fun _ => True) :=
      keeps_inOrder (List.forall_mem_map.mpr fun arg _ => evaluate_remembers _ arg)
    have hRead : .beforeEffect ⟨frame, p.id, p.store⟩ target ∈ operands.path.state.made :=
      (hArgs _ (evaluate_reads_announced hReads p) fun _ _ => trivial).1
    refine ⟨⟨_, hRead, hTarget.value.symm⟩, ?_⟩
    rintro (rfl : args = [])
    rw [show last.store = p.store from hTarget.store]
    exact hTarget.value.symm
  | named _ | super => cases hObject

/-- If a path is shown after a send, the calls before tell how the send was made. -/
def SendShown (frame : Frame) (d : Path (Traced σ ρ)) : Prop :=
  ∀ before site event, d.state.made = before ++ [.afterSend site event] → SendMade frame before event

theorem sendShown_of_concat {d : Path (Traced σ ρ)} {made : List Callback} {call : Callback}
    (hMade : d.state.made = made ++ [call]) (hCall : ∀ site event, call ≠ .afterSend site event) :
    SendShown frame d := by
  intro before site event hAfter
  obtain ⟨-, hLast⟩ := List.append_inj' (hMade.symm.trans hAfter) rfl
  exact absurd (List.singleton_inj.mp hLast) (hCall site event)

theorem evaluate_shows (e : Expr) : (evaluate frame check.traced e).Keeps (fun _ _ => True)
    (fun _ => True) (SendShown frame) := by
  induction e using Expr.inductionOn with
  | step e ih =>
    have hOperands : (inOrder (e.operands.map (evaluate frame check.traced))).Keeps
        (fun _ _ => True) (fun _ => True) (SendShown frame) :=
      keeps_inOrder (List.forall_mem_map.mpr ih)
    have hBefore : (consult frame fun site t => check.traced.beforeEffect site t e).Keeps
        (fun _ _ => True) (fun _ => True) (SendShown frame) :=
      keeps_consult fun n store t _ _ => by
        have hCall : ∀ site event, Callback.beforeEffect ⟨frame, n, store⟩ e ≠ .afterSend site event :=
          fun _ _ h => by cases h
        exact ⟨trivial, List.forall_mem_singleton.mpr (sendShown_of_concat rfl hCall)⟩
    -- Only a send makes a call after its effect, and what that call tells is told of the path on
    -- which the operands were evaluated. The other constructors go part by part.
    cases e with
    | send m r =>
      intro p _ _
      refine ⟨trivial, fun d hd => ?_⟩
      rcases made_of_mem_evaluate_send hd with hPart | hItself | ⟨site, hAfter⟩
      · exact (hOperands p trivial fun _ _ => trivial).2 d hPart
      · exact sendShown_of_concat hItself fun _ _ h => by cases h
      · intro before other event hMade
        obtain ⟨rfl, hLast⟩ := List.append_inj' (hAfter.symm.trans hMade) rfl
        cases List.singleton_inj.mp hLast
        exact sendMade_evaluate m r p
    | self _ | nil _ | int _ _ | selector _ _ | paren _ _ | cast _ _ _ | binary _ _ _ _
    | unary _ _ _ | call _ _ _ | other _ _ =>
      rw [evaluate_eq]
      exact hOperands.bind fun _ => hBefore.bind fun _ => keeps_pure _
    | var _ _ _ | field _ _ =>
      rw [evaluate_eq]
      exact hOperands.bind fun _ => hBefore.bind fun _ => keeps_readSlot _
    | assign _ _ _ =>
      rw [evaluate_eq]
      exact hOperands.bind fun _ => hBefore.bind fun _ =>
        (keeps_writeSlot _ _).bind fun _ => keeps_pure _

theorem sendMade_of_mem_shownCalls {limits : Limits} {before : List Callback} {site : Site}
    {event : SendEvent} (h : before ++ [.afterSend site event] ∈ shownCalls frame limits) :
    SendMade frame before event := by
  have hInvariant : Invariant frame PathCheck.silent.traced (fun _ => True) (fun _ => True)
      (SendShown frame) := {
    start := trivial
    evaluates := evaluate_shows
    assumed := fun _ _ _ => trivial
    atEnd := keeps_consult fun n store t _ _ => by
      have hCall : ∀ site event, Callback.atEnd ⟨frame, n, store⟩ ≠ .afterSend site event :=
        fun _ _ h => by cases h
      exact ⟨trivial, List.forall_mem_singleton.mpr (sendShown_of_concat rfl hCall)⟩ }
  obtain ⟨p, hp, hMade⟩ := List.mem_map.mp h
  exact hInvariant.forall_reports limits (fun _ _ => trivial) p hp before site event hMade

end

/-! ## What is let go -/

section

variable {config : DelegateConfig} {facts : ClassFacts} {frame : Frame} {site : Site} {r : Release}

theorem isKnownNull_eq_false_iff (hOn : config.suppressIfNull = true) {value : Nullness} :
    isKnownNull config value = false ↔ value ≠ .null := by
  simp [isKnownNull, hOn, Nullness.isNull]

theorem of_mem_assignmentReleases {e : Expr} (h : r ∈ assignmentReleases config site e) :
    assignedField? site.frame.scope e = some r.field ∧
      isKnownNull config (site.store.lookup (.field r.field)) = false := by
  unfold assignmentReleases at h
  split at h
  · obtain ⟨field, hField, rfl⟩ := List.mem_map.mp h
    obtain ⟨hAssigned, hNotNull⟩ := Option.filter_eq_some_iff.mp (Option.mem_toList.mp hField)
    exact ⟨hAssigned, by simpa using hNotNull⟩
  · cases h

theorem of_mem_sendReleases {event : SendEvent} (h : r ∈ sendReleases config facts site event) :
    ∃ receiver, event.message.target? = some receiver ∧ isKnownNull config event.receiver = false ∧
      (receiver.isSelf = true ∧ event.hasKnownBody = false ∧
          (site.frame.scope.setter? event.message).bind (·.backingField) = some r.field ∨
        receiver.isSelf = false ∧ config.isReleaseSelector event.message.selector = true ∧
          site.frame.scope.fieldOf? receiver = some r.field) := by
  obtain ⟨field, hField, rfl⟩ := List.mem_map.mp h
  obtain ⟨receiver, hReceiver, h⟩ := Option.bind_eq_some_iff.mp (Option.mem_toList.mp hField)
  obtain ⟨hNotNull, h⟩ := Option.ite_none_left_eq_some.mp h
  refine ⟨receiver, hReceiver, Bool.eq_false_iff.mpr hNotNull, ?_⟩
  split at h
  · rename_i hSelf
    obtain ⟨hBody, hSetter⟩ := Option.ite_none_left_eq_some.mp h
    exact .inl ⟨hSelf, Bool.eq_false_iff.mpr hBody, hSetter⟩
  · rename_i hOther
    obtain ⟨hSelector, hKept⟩ := Option.ite_none_right_eq_some.mp h
    exact .inr ⟨Bool.eq_false_iff.mpr hOther, hSelector, (Option.filter_eq_some_iff.mp hKept).1⟩

theorem of_mem_teardownReleases (h : r ∈ teardownReleases config facts site) :
    site.frame.method.selector = config.teardownMethod ∧
      isKnownNull config (site.store.lookup (.field r.field)) = false := by
  unfold teardownReleases at h
  split at h
  · rename_i hTeardown
    obtain ⟨field, hField, rfl⟩ := List.mem_map.mp h
    obtain ⟨-, hNotNull⟩ := List.mem_filter.mp hField
    exact ⟨beq_iff_eq.mp (Bool.and_eq_true_iff.mp hTeardown).2, by simpa using hNotNull⟩
  · cases h

def Frame.isWrittenAccessor (frame : Frame) (e : Expr) : Bool :=
  match e.strip with
  | .send m _ => !(frame.scope.definition? m).all (·.implicit)
  | _ => false

theorem readsField?_of_fieldOf? {e : Expr} {field : String}
    (h : frame.scope.fieldOf? e = some field) (hAccessor : frame.isWrittenAccessor e = false) :
    frame.readsField? e = some field := by
  rw [Frame.isWrittenAccessor] at hAccessor
  rw [ClassScope.fieldOf?] at h
  rw [Frame.readsField?]
  cases hStrip : e.strip with
  | field name r =>
    rw [hStrip] at h
    exact h
  | send m r =>
    rw [hStrip] at h hAccessor
    obtain ⟨hSelf, hGetter⟩ := Option.ite_none_right_eq_some.mp h
    have hSynthesized : frame.isSynthesizedOnSelf m = true :=
      Bool.and_eq_true_iff.mpr ⟨hSelf, by simpa using hAccessor⟩
    simp only [Frame.readField?, if_pos hSynthesized]
    exact hGetter
  | _ =>
    rw [hStrip] at h
    cases h

end

/-- How the object in a field comes to be let go, and what its value is then. -/
inductive LetGo (config : DelegateConfig) (frame : Frame) (made : List Callback) (field : String) :
    Prop where
  | written (before : List Callback) (site : Site) (e : Expr)
    (hMade : made = before ++ [.beforeEffect site e])
    (hField : assignedField? frame.scope e = some field)
    (hValue : site.store.lookup (.field field) ≠ .null)
  | released (before : List Callback) (last site : Site) (event : SendEvent) (receiver : Expr)
    (hMade : made = before ++ [.beforeEffect last event.expr, .afterSend site event])
    (hReceiver : event.message.target? = some receiver)
    (hSelector : config.isReleaseSelector event.message.selector = true)
    (hField : frame.scope.fieldOf? receiver = some field)
    (hValue : event.receiver ≠ .null)
    (hRead : frame.isWrittenAccessor receiver = false →
      ReceiverRead before last event receiver field)
  | replaced (before : List Callback) (site : Site) (event : SendEvent) (receiver : Expr)
    (hMade : made = before ++ [.afterSend site event])
    (hReceiver : event.message.target? = some receiver) (hSelf : receiver.isSelf = true)
    (hBody : event.hasKnownBody = false)
    (hField : (frame.scope.setter? event.message).bind (·.backingField) = some field)
  | tornDown (before : List Callback) (site : Site) (hMade : made = before ++ [.atEnd site])
    (hMethod : frame.method.selector = config.teardownMethod)
    (hValue : site.store.lookup (.field field) ≠ .null)

theorem letGo_of_mem_releases {config : DelegateConfig} (hOn : config.suppressIfNull = true)
    {facts : ClassFacts} {frame : Frame} {limits : Limits} {before : List Callback} {call : Callback}
    (hMade : before ++ [call] ∈ shownCalls frame limits) {r : Release}
    (hr : r ∈ call.releases config facts) : LetGo config frame (before ++ [call]) r.field := by
  have hFits := (exists_concat_of_mem_shownCalls hMade).1.fits call
    (List.mem_append_right _ List.mem_cons_self)
  cases call with
  | beforeEffect site e =>
    obtain rfl := hFits.frame_eq rfl
    obtain ⟨hField, hNotNull⟩ := of_mem_assignmentReleases hr
    exact .written before site e rfl hField ((isKnownNull_eq_false_iff hOn).mp hNotNull)
  | afterSend site event =>
    obtain rfl := hFits.frame_eq rfl
    obtain ⟨receiver, hReceiver, hNotNull, hKind⟩ := of_mem_sendReleases hr
    rcases hKind with ⟨hSelf, hBody, hField⟩ | ⟨-, hSelector, hField⟩
    · exact .replaced before site event receiver rfl hReceiver hSelf hBody hField
    · obtain ⟨earlier, last, rfl, hRead⟩ := sendMade_of_mem_shownCalls hMade
      exact .released earlier last site event receiver (List.append_assoc ..) hReceiver hSelector
        hField ((isKnownNull_eq_false_iff hOn).mp hNotNull) fun hAccessor =>
          hRead receiver r.field hReceiver (readsField?_of_fieldOf? hField hAccessor)
  | assume subject cond truth => cases hr
  | atEnd site =>
    obtain rfl := hFits.frame_eq rfl
    obtain ⟨hMethod, hNotNull⟩ := of_mem_teardownReleases hr
    exact .tornDown before site rfl hMethod ((isKnownNull_eq_false_iff hOn).mp hNotNull)

/-- With nil ignored, every report of a path is about an object let go that is not known to be nil.
Of a write through an accessor of `self` nothing of the kind is said. -/
theorem known_null_is_let_go_silently {config : DelegateConfig} (hOn : config.suppressIfNull = true)
    (subject : Subject) (limits : Limits) :
    let check := delegatePaths config (scannedFacts config subject)
    (∀ d ∈ ((danglingDelegateCheck config).run subject limits).reports,
      d.context.isDeclaration = false → ∃ frame ∈ UnitCheck.frames subject,
        ∃ made ∈ shownCalls frame limits, d ∈ check.filed made) ∧
    ∀ frame ∈ UnitCheck.frames subject, ∀ made ∈ shownCalls frame limits, ∀ d ∈ check.filed made,
      ∃ (r : Release) (site : Site) (property : String), d = r.report site property ∧
        made.getLast?.bind Callback.site? = some site ∧ LetGo config frame made r.field := by
  intro check
  constructor
  · intro d hd hPath
    rcases mem_reports_run_iff.mp hd with hScan | hFiled
    · rw [← filter_isDeclaration_run config subject limits] at hScan
      exact absurd (List.mem_filter.mp hScan).2 (Bool.eq_false_iff.mp hPath)
    · exact hFiled
  · intro frame hFrame made hMade d hd
    obtain ⟨-, before, call, rfl⟩ := exists_concat_of_mem_shownCalls hMade
    rw [PathCheck.filed_concat, mem_filed_iff] at hd
    obtain ⟨site, hSite, facts, -, r, hr, property, -, -, rfl⟩ := hd
    refine ⟨r, site, property, rfl, ?_, letGo_of_mem_releases hOn hMade hr⟩
    rw [List.getLast?_concat]
    exact hSite

namespace Sample

def managed (methods : List MethodDecl) : SourceUnit :=
  manualReleasePair
    (method "init" [.expr (setProperty (.field "_bar" .unknown) "delegate" (.self .unknown))] ::
      methods)

def setNil : Expr := .assign (.field "_bar" .unknown) (.nil .unknown) .unknown

def releasedInDealloc : SourceUnit :=
  managed [method "dealloc" [.expr (send (.object (.field "_bar" .unknown)) "release" [])]]

def nilReplaced : SourceUnit :=
  managed [method "reset" [.expr setNil,
    .expr (setProperty (.self .unknown) "bar" (.var "other" none .unknown))]]

def nilAccessed : SourceUnit :=
  managed [method "dealloc" [.expr setNil,
      .expr (send (.object (getProperty (.self .unknown) "bar")) "release" [])],
    method "bar" [.ret (some (.field "_bar" .unknown))]]

def nilPassed : SourceUnit :=
  managed [method "dealloc" [.expr (send (.object (.field "_bar" .unknown)) "releaseAfter:" [setNil])]]

def releasingAfter : DelegateConfig :=
  { DelegateConfig.default with releaseSelectors := ["releaseAfter:"] }

def accessBar : Message Expr := ⟨.object (.self .unknown), "bar", []⟩

def releaseAccessed : Message Expr := ⟨.object (.send accessBar .unknown), "release", []⟩

/-- The calls that the teardown method of `nilAccessed` makes, up to its release. -/
def untilReleased (site : Site) : List Callback :=
  let unbound : Site := { site with store := ∅ }
  [.beforeEffect unbound (.field "_bar" .unknown), .beforeEffect unbound (.nil .unknown),
    .beforeEffect unbound setNil, .beforeEffect site (.self .unknown),
    .beforeEffect site (.send accessBar .unknown),
    .afterSend site ⟨.send accessBar .unknown, accessBar, .nonNull, [],
      site.frame.scope.definition? accessBar⟩,
    .beforeEffect site (.send releaseAccessed .unknown)]

/-- The last call is after a send that was made when the field was known to be nil. -/
def isMadeOverNil (made : List Callback) : Bool :=
  match made.reverse with
  | .afterSend _ _ :: .beforeEffect last _ :: _ => last.store.lookup (.field "_bar") == .null
  | _ => false

end Sample

open Sample in
theorem released_field_is_not_known_null :
    ∃ made ∈ shownCalls (fooFrame releasedInDealloc 1) ⟨512, 2⟩,
      ∃ (r : Release) (site : Site) (property : String),
        r.report site property ∈ ((danglingDelegateCheck .default).run (.ofUnit releasedInDealloc none)
          ⟨512, 2⟩).reports ∧
        LetGo .default (fooFrame releasedInDealloc 1) made r.field := by
  have hSome : ∃ made ∈ shownCalls (fooFrame releasedInDealloc 1) ⟨512, 2⟩,
      (delegatePaths .default (scannedFacts .default (.ofUnit releasedInDealloc none))).filed made ≠ [] := by
    decide +kernel
  obtain ⟨made, hMade, hFiled⟩ := hSome
  obtain ⟨d, hd⟩ := List.exists_mem_of_ne_nil _ hFiled
  have hFrame : fooFrame releasedInDealloc 1 ∈ UnitCheck.frames (.ofUnit releasedInDealloc none) :=
    List.mem_cons_of_mem _ List.mem_cons_self
  obtain ⟨r, site, property, rfl, -, hLetGo⟩ :=
    (known_null_is_let_go_silently rfl (.ofUnit releasedInDealloc none) ⟨512, 2⟩).2 _ hFrame made hMade
      d hd
  exact ⟨made, hMade, r, site, property, mem_reports_run_iff.mpr (.inr ⟨_, hFrame, made, hMade, hd⟩),
    hLetGo⟩

open Sample in
/-- A write through an accessor, a release through a written accessor and one with arguments may each
be reported although the field is known to be nil when they are made. -/
theorem null_fields_are_reported :
    let check (config : DelegateConfig) (unit : SourceUnit) :=
      delegatePaths config (scannedFacts config (.ofUnit unit none))
    (∃ made ∈ shownCalls (fooFrame nilReplaced 1) ⟨512, 2⟩, isMadeOverNil made = true ∧
      (check .default nilReplaced).filed made ≠ []) ∧
    (∃ made ∈ shownCalls (fooFrame nilAccessed 1) ⟨512, 2⟩, isMadeOverNil made = true ∧
      (check .default nilAccessed).filed made ≠ []) ∧
    ∃ made ∈ shownCalls (fooFrame nilPassed 1) ⟨512, 2⟩, isMadeOverNil made = true ∧
      (check releasingAfter nilPassed).filed made ≠ [] := by
  intro check
  refine ⟨by decide +kernel, ?_, by decide +kernel⟩
  let frame := fooFrame nilAccessed 1
  let site : Site := ⟨frame, 0, (∅ : Store).bind (.field "_bar") .null⟩
  let event : SendEvent := ⟨.send releaseAccessed .unknown, releaseAccessed, .unknown, [],
    frame.scope.definition? releaseAccessed⟩
  have hShown : untilReleased site ++ [.afterSend site event] ∈ shownCalls frame ⟨512, 2⟩ :=
    List.mem_of_getElem? (i := 7) rfl
  have hNil : isMadeOverNil (untilReleased site ++ [.afterSend site event]) = true := by
    simp [isMadeOverNil, untilReleased, site]
  refine ⟨untilReleased site ++ [.afterSend site event], hShown, hNil, ?_⟩
  -- The kernel does not evaluate the search for a colon that tells a getter from other messages.
  have hShape : ClassScope.isGetterShape accessBar = true := by
    simp [ClassScope.isGetterShape, accessBar]
  have hField : frame.scope.fieldOf? (.send accessBar .unknown) = some "_bar" := by
    change (frame.scope.getter? accessBar).bind (·.backingField) = some "_bar"
    rw [ClassScope.getter?, if_pos hShape]
    decide +kernel
  have hReleases : sendReleases .default (fooFacts nilAccessed) site event =
      [⟨"_bar", none, .unknown⟩] := by
    change ((frame.scope.fieldOf? (.send accessBar .unknown)).filter
      (fooFacts nilAccessed).isInteresting).toList.map _ = _
    rw [hField, Option.filter_some, if_pos (by decide +kernel)]
    rfl
  have hKnown : (scannedFacts .default (.ofUnit nilAccessed none)).find? site.frame.className =
      some (fooFacts nilAccessed) := by
    decide +kernel
  rw [PathCheck.filed_concat, filed_answer, Callback.site?, Option.elim_some, hKnown,
    Option.elim_some, Callback.releases, hReleases]
  decide +kernel

end DelegateSafety
