import DelegateSafety.Proofs.Wrappers

/-! # A field and its accessor

Where a property of `self` is held by a field and nobody has written its getter, a message to the object in
the field may name the field or read the property. The send of the getter looks like the field to what
receives it, and its evaluation reads the field and adds calls that the check does not answer.
-/
namespace DelegateSafety

open PathM

/-- A message sent to what a getter of `self` returns in place of a field. -/
inductive Expr.Respelled (field getter : String) : Expr → Expr → Prop
  | send (selector : String) (args : List Expr) (r rField rGetter rSelf : SourceRange) :
    Respelled field getter (.send ⟨.object (.field field rField), selector, args⟩ r)
      (.send ⟨.object (.send ⟨.object (.self rSelf), getter, []⟩ rGetter), selector, args⟩ r)

/-- A property of a class of the type of the field that holds it, with a getter that nobody has written. -/
structure SourceUnit.Holds (unit : SourceUnit) (className field getter : String) (decl : FieldDecl)
    (property : PropertyDecl) : Prop where
  findField? : unit.findField? className field = some decl
  findProperty? : unit.findProperty? className getter = some property
  type : property.type = decl.type
  backingField : property.backingField = some field
  noColon : getter.contains ':' = false
  synthesized : (unit.findMethod? className getter).all (·.implicit) = true

variable {config : DelegateConfig} {known : FactsByClass} {frame : Frame} {unit : SourceUnit}
  {className field getter : String} {decl : FieldDecl} {property : PropertyDecl}

namespace SourceUnit.Holds

theorem getter? (h : unit.Holds className field getter decl property) (r : SourceRange) :
    ClassScope.getter? ⟨unit, className⟩ ⟨.object (.self r), getter, []⟩ = some property := by
  have hShape : ClassScope.isGetterShape (⟨.object (.self r), getter, []⟩ : Message Expr) = true := by
    rw [ClassScope.isGetterShape, h.noColon]
    rfl
  rw [ClassScope.getter?, if_pos hShape]
  exact h.findProperty?

theorem alikeReceived (h : unit.Holds className field getter decl property) (rField r rSelf : SourceRange) :
    Expr.AlikeReceived ⟨unit, className⟩ ⟨unit, className⟩ (.field field rField)
      (.send ⟨.object (.self rSelf), getter, []⟩ r) where
  staticType? := by
    rw [ClassScope.staticType?_send, h.getter?, ClassScope.staticType?, ClassScope.field?, h.findField?]
    exact congrArg some h.type.symm
  isSelf := rfl
  fieldOf? := by
    have hField : (ClassScope.getter? ⟨unit, className⟩ ⟨.object (.self rSelf), getter, []⟩).bind
        (·.backingField) = some field := by
      rw [h.getter?, Option.bind_some, h.backingField]
    exact hField.symm
  singletonOf? _ := rfl
  observations config method := by
    rw [Expr.observations_eq, Expr.observations_eq]
    rfl

theorem alike_message (h : unit.Holds className field getter decl property) (selector : String)
    (args : List Expr) (rField r rSelf : SourceRange) :
    Message.Alike ⟨unit, className⟩ ⟨unit, className⟩ ⟨.object (.field field rField), selector, args⟩
      ⟨.object (.send ⟨.object (.self rSelf), getter, []⟩ r), selector, args⟩ :=
  ⟨rfl, .object (h.alikeReceived rField r rSelf), List.forall₂_same.mpr fun e _ => .refl _ e⟩

theorem alike (h : unit.Holds className field getter decl property) {e e' : Expr}
    (hRespelled : e.Respelled field getter e') :
    e.Alike ⟨unit, className⟩ ⟨unit, className⟩ e' := by
  obtain ⟨selector, args, r, rField, rGetter, rSelf⟩ := hRespelled
  exact (h.alike_message selector args rField rGetter rSelf).send (.refl _) r r

theorem readField? (h : frame.subject.unit.Holds frame.className field getter decl property)
    (r : SourceRange) : frame.readField? ⟨.object (.self r), getter, []⟩ = some field := by
  have hSynthesized : frame.isSynthesizedOnSelf ⟨.object (.self r), getter, []⟩ = true := h.synthesized
  have hGetter : frame.scope.getter? ⟨.object (.self r), getter, []⟩ = some property := h.getter? r
  rw [Frame.readField?, if_pos hSynthesized, hGetter, Option.bind_some, h.backingField]

end SourceUnit.Holds

/-- On an open path a message without arguments to `self` is passed over. -/
theorem consult_afterSend {p : Path DelegateState} (h : p.state.isInitialized = true) (e : Expr)
    (r : SourceRange) (selector : String) (definition : Option MethodDecl) :
    consult frame (fun site s => (delegatePaths config known).afterSend site s
      ⟨e, ⟨.object (.self r), selector, []⟩, .nonNull, [], definition⟩) p = ⟨(), p, []⟩ := by
  have hCheck : ∀ facts site s, checkSend config facts site s
      ⟨e, ⟨.object (.self r), selector, []⟩, .nonNull, [], definition⟩ = (s, []) := by
    intro facts site s
    have hNull : isKnownNull config .nonNull = false := Bool.and_false _
    simp only [checkSend, Message.target?, Receiver.target?, hNull]
    rfl
  simp only [consult, delegatePaths, openPath_of_isInitialized h, hCheck]
  cases known.find? frame.className <;> rfl

theorem evaluate_getter (h : frame.subject.unit.Holds frame.className field getter decl property)
    (rField r rSelf : SourceRange) :
    evaluate frame (delegatePaths config known) (.field field rField) =
      evaluate frame (delegatePaths config known) (.send ⟨.object (.self rSelf), getter, []⟩ r) := by
  have hRead : sendEffect frame ⟨.object (.self rSelf), getter, []⟩ .nonNull [] =
      (readSlot (.field field) : PathM DelegateState Diagnostic Nullness) := by
    simp only [sendEffect, h.readField?]
    rfl
  funext p
  -- Shown any of these expressions, the check opens the path and files nothing.
  have hOpen : (consult frame (fun site s => (delegatePaths config known).beforeEffect site s
      (.self rSelf)) p).path.state.isInitialized = true :=
    isInitialized_openPath (known.find? frame.className) ⟨frame, p.id, p.store⟩ p.state
  calc evaluate frame (delegatePaths config known) (.field field rField) p
    _ = (do
          consult frame fun site s => (delegatePaths config known).beforeEffect site s (.self rSelf)
          readSlot (.field field)) p := by rw [evaluate_eq]; rfl
    _ = (do
          consult frame fun site s => (delegatePaths config known).beforeEffect site s (.self rSelf)
          consult frame fun site s => (delegatePaths config known).beforeEffect site s
            (.send ⟨.object (.self rSelf), getter, []⟩ r)
          let value ← readSlot (.field field)
          consult frame fun site s => (delegatePaths config known).afterSend site s
            ⟨.send ⟨.object (.self rSelf), getter, []⟩ r, ⟨.object (.self rSelf), getter, []⟩, .nonNull, [],
              frame.scope.definition? ⟨.object (.self rSelf), getter, []⟩⟩
          pure value) p := by
      simp only [bind_apply]
      rw [consult_beforeEffect hOpen rfl]
      simp only [readSlot]
      rw [consult_afterSend hOpen]
      rfl
    _ = evaluate frame (delegatePaths config known) (.send ⟨.object (.self rSelf), getter, []⟩ r) p := by
      rw [evaluate_eq]
      simp only [Expr.operands, Message.operands, Message.target?, Receiver.target?, Option.toList_some,
        List.append_nil, List.map_cons, List.map_nil, inOrder, effect, evaluateSend]
      rw [evaluate_eq]
      simp [splitOperands, inOrder, effect, hRead, Expr.operands, Message.target?, Receiver.target?]

theorem evaluate_respelled (h : frame.subject.unit.Holds frame.className field getter decl property)
    {e e' : Expr} (hRespelled : e.Respelled field getter e') :
    evaluate frame (delegatePaths config known) e = evaluate frame (delegatePaths config known) e' := by
  obtain ⟨selector, args, r, rField, rGetter, rSelf⟩ := hRespelled
  have hSent := (h.alike_message selector args rField rGetter rSelf).sent (.refl frame.scope)
  refine evaluate_send_congr (.refl frame) hSent ?_ r
  exact congrArg (· :: args.map _) (evaluate_getter h rField rGetter rSelf)

/-- Messages to the object in a field may be sent to what its getter returns instead, anywhere in the
methods of the class. -/
theorem accessor_stands_for_its_field (config : DelegateConfig) (settings : AnalysisSettings)
    {unit unit' : SourceUnit} {className field getter : String} {decl : FieldDecl}
    {property : PropertyDecl} (hHolds : unit.Holds className field getter decl property)
    (hRelated : unit.Related (fun name => Expr.Rewrites fun e e' =>
      name = className ∧ e.Respelled field getter e') unit') :
    scannedFacts config (.ofUnit unit settings.autoReleaseFields) =
        scannedFacts config (.ofUnit unit' settings.autoReleaseFields) ∧
      (danglingDelegateCheck config).run (.ofUnit unit settings.autoReleaseFields) settings.limits =
        (danglingDelegateCheck config).run (.ofUnit unit' settings.autoReleaseFields) settings.limits := by
  have hLang := Subject.lang_ofUnit_congr hRelated.lang settings.autoReleaseFields
  have hAlike : ∀ name (e e' : Expr), name = className ∧ e.Respelled field getter e' →
      e.Alike ⟨unit, name⟩ ⟨unit, name⟩ e' := by
    rintro name e e' ⟨rfl, hRespelled⟩
    exact hHolds.alike hRespelled
  refine ⟨scannedFacts_of_rewrites hRelated hLang hAlike,
    run_of_rewrites hRelated hLang hAlike ?_ settings.limits⟩
  rintro frame hSubject known e e' ⟨rfl, hRespelled⟩
  have hFrame : frame.subject.unit = unit := by rw [hSubject, Subject.ofUnit]
  rw [← hFrame] at hHolds
  exact evaluate_respelled hHolds hRespelled

namespace Sample

/-- `self` is stored in `init`, and `drop` sends the object a release. Both name it in a given way. -/
def storedAndReleased (bar : Expr) : SourceUnit :=
  delegatePair [
    method "init" [.expr (setProperty bar "delegate" (.self .unknown))],
    method "drop" [.expr (send (.object bar) "release" [])]]

def barField : Expr := .field "_bar" .unknown

def barGetter : Expr := getProperty (.self .unknown) "bar"

theorem holds_bar : (storedAndReleased barField).Holds "Foo" "_bar" "bar"
    ⟨"_bar", .object "Bar", .ofLine 4⟩ (backedProperty "bar" (.object "Bar") .strong) where
  findField? := by decide +kernel
  findProperty? := by decide +kernel
  type := rfl
  backingField := rfl
  noColon := by rw [String.contains_char_eq]; decide
  synthesized := by decide +kernel

theorem related_barGetter : (storedAndReleased barField).Related
    (fun name => Expr.Rewrites fun e e' => name = "Foo" ∧ e.Respelled "_bar" "bar" e')
    (storedAndReleased barGetter) := by
  have hSend : ∀ selector args, Expr.Rewrites (fun e e' => "Foo" = "Foo" ∧ e.Respelled "_bar" "bar" e')
      (send (.object barField) selector args) (send (.object barGetter) selector args) :=
    fun selector args => .of_step ⟨rfl, .send selector args _ _ _ _⟩
  have hInit := method_related (.cons (.expr (hSend "setDelegate:" [.self .unknown])) .nil) "init"
  have hDrop := method_related (.cons (.expr (hSend "release" [])) .nil) "drop"
  exact ⟨rfl, rfl, rfl, rfl, .cons ⟨rfl, rfl, rfl, .cons hInit (.cons hDrop .nil)⟩ .nil⟩

end Sample

open Sample in
/-- The release of the object is reported under either name, and so is the class as a whole. -/
theorem release_through_getter_is_reported :
    (storedAndReleased barField).Holds "Foo" "_bar" "bar" ⟨"_bar", .object "Bar", .ofLine 4⟩
        (backedProperty "bar" (.object "Bar") .strong) ∧
      ((danglingDelegateCheck .default).run (.ofUnit (storedAndReleased barGetter) none)
          AnalysisSettings.default.limits).reports =
        ((danglingDelegateCheck .default).run (.ofUnit (storedAndReleased barField) none)
          AnalysisSettings.default.limits).reports ∧
      ((danglingDelegateCheck .default).run (.ofUnit (storedAndReleased barField) none)
        AnalysisSettings.default.limits).reports.length = 2 := by
  obtain ⟨-, hRun⟩ := accessor_stands_for_its_field .default .default holds_bar related_barGetter
  exact ⟨holds_bar, congrArg Analysis.reports hRun.symm, by decide +kernel⟩

end DelegateSafety
