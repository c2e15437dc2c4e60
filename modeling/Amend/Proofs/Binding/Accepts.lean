/-
# Amend.Proofs.Binding.Accepts: what a parameter declares and what it is bound to

A parameter may declare that it is not null, that it takes a list, or that it takes a document. A request
variable is held to that before it is decoded, by how its text begins; a default is bound as it is
configured. Binding completes documents afterwards, which leaves them of their sort. So whether a value keeps
to the declaration is known from its source.

* **`Variables.written_parse`**: the text of every request variable writes a value.
* **`Parameter.Accepts`**: a value keeps to what its parameter declares.
* **`accepts_ofRaw`**: a request variable that suits its parameter is decoded to such a value.
* **`accepts_of_bind`**: a bound value keeps to the declaration if the request gives it or its default does;
  a null for a parameter that is not null fails the request.
* **`not_everyBoundAccepted`**: a default may break the declaration.
-/
import Amend.Proofs.Binding.Positional
import Amend.Proofs.Json.Grammar

namespace Amend

/-! ## Texts of variables -/

/-- The text of a value that begins as null does is null. -/
theorem Json.Tree.WrittenAs.eq_null {t : Json.Tree} {raw : List Char} (h : t.WrittenAs raw)
    (hhead : raw.head? = some 'n') : raw = ['n', 'u', 'l', 'l'] := by
  cases h with
  | null => rfl
  | number h =>
    obtain ⟨c, cs, rfl, hc⟩ := h.opens
    cases hhead
    exact absurd hc (by decide)
  | _ => simp at hhead

namespace Variables

/-- **`Written`**: the text of every variable writes a value. -/
def Written (vs : Variables) : Prop := ∀ v ∈ vs, ∃ t : Json.Tree, t.WrittenAs v.2

theorem Written.put {vs : Variables} (h : vs.Written) {name : String} {cs raw rest : List Char}
    (hraw : Json.rawValue cs = some (raw, rest)) : (vs.put name raw).Written := by
  intro v hv
  rcases List.mem_cons.mp hv with rfl | hv
  · obtain ⟨t, ht, _⟩ := Json.written_of_rawValue hraw
    exact ⟨t, ht⟩
  · exact h v (List.mem_filter.mp hv).1

/-- Members that are read are added to those before. -/
theorem written_readMembers {fuel : Nat} {vs vs' : Variables} {cs rest : List Char}
    (h : vs.Written) (hread : readMembers fuel vs cs = some (vs', rest)) : vs'.Written := by
  induction fuel generalizing vs cs with
  | zero => cases hread
  | succ fuel ih =>
    rw [readMembers] at hread
    split at hread
    case h_1 cs' _ =>
      obtain ⟨⟨name, rest₁⟩, hname, hread⟩ := Option.bind_eq_some_iff.mp hread
      dsimp only at hread
      split at hread
      case h_1 rest₂ _ =>
        obtain ⟨⟨raw, rest₃⟩, hraw, hread⟩ := Option.bind_eq_some_iff.mp hread
        dsimp only at hread
        split at hread
        case h_1 => exact ih (h.put hraw) hread
        case h_2 =>
          cases hread
          exact h.put hraw
        case h_3 => cases hread
      case h_2 => cases hread
    case h_2 => cases hread

/-- **`written_parse`**: the text of every variable of a request writes a value, though perhaps one that cannot be
decoded. -/
theorem written_parse {cs : List Char} {vs : Variables} (h : parse cs = some vs) : vs.Written := by
  have hempty : Written [] := fun v hv => by cases hv
  have hend {vs' : Variables} {rest : List Char}
      (h : (if (Json.skipSpace rest).isEmpty then some vs' else none) = some vs) : vs' = vs := by
    split at h
    · exact Option.some.inj h
    · cases h
  rw [parse] at h
  split at h
  case h_1 =>
    dsimp only at h
    split at h
    case h_1 =>
      rw [← hend h]
      exact hempty
    case h_2 =>
      obtain ⟨⟨vs', rest⟩, hread, h⟩ := Option.bind_eq_some_iff.mp h
      rw [← hend h]
      exact written_readMembers hempty hread
  case h_2 => cases h

/-- **`Legible`**: every variable whose text begins as null does is null. -/
def Legible (vs : Variables) : Prop :=
  ∀ v ∈ vs, v.2.head? = some 'n' → v.2 = ['n', 'u', 'l', 'l']

theorem Legible.raw? {vs : Variables} (h : vs.Legible) {name : String} {raw : List Char}
    (hraw : vs.raw? name = some raw) (hhead : raw.head? = some 'n') : raw = ['n', 'u', 'l', 'l'] := by
  obtain ⟨before, behind, rfl, _⟩ := List.lookup_eq_some_iff.mp hraw
  exact h (name, raw) (by simp) hhead

/-- The variables of a request are legible. -/
theorem legible_parse {cs : List Char} {vs : Variables} (h : parse cs = some vs) : vs.Legible := by
  intro v hv hhead
  obtain ⟨t, ht⟩ := written_parse h v hv
  exact ht.eq_null hhead

end Variables

namespace Argument

/-- Only a text that begins as null does is decoded to null. -/
theorem head?_of_ofRaw_null {raw : List Char} (h : ofRaw raw = .ok .null) : raw.head? = some 'n' := by
  unfold ofRaw at h
  split at h
  case h_8 => rfl
  case h_9 => cases h
  all_goals first
    | cases h
    | (split at h <;> cases h)

theorem ofRaw_null {raw : List Char} (h : Binding.isNullText raw = true) : ofRaw raw = .ok .null := by
  rw [show raw = ['n', 'u', 'l', 'l'] by simpa [Binding.isNullText] using h]
  rfl

/-- A text that begins as a list or an object does is decoded to the document that it writes. -/
theorem document_of_ofRaw {c : Char} {cs : List Char} {v : Argument} (hc : c = '[' ∨ c = '\x7b')
    (h : ofRaw (c :: cs) = .ok v) :
    ∃ doc, v = .json doc ∧ Json.parseWithin Json.maxDepth (c :: cs) = some doc := by
  cases hdoc : Json.parseWithin Json.maxDepth (c :: cs) with
  | none => rcases hc with rfl | rfl <;> simp [ofRaw, hdoc] at h
  | some doc =>
    refine ⟨doc, ?_, rfl⟩
    rcases hc with rfl | rfl
    · simpa [ofRaw, hdoc] using h.symm
    · simpa [ofRaw, hdoc] using h.symm

theorem ofRaw_bracket {cs : List Char} {v : Argument} (h : ofRaw ('[' :: cs) = .ok v) :
    ∃ items, v = .json (.arr items) := by
  obtain ⟨doc, rfl, hdoc⟩ := document_of_ofRaw (.inl rfl) h
  obtain ⟨_, hread, _⟩ := Json.parseWithin_ok hdoc
  obtain ⟨items, rfl⟩ := Json.arr_of_bracket hread
  exact ⟨items, rfl⟩

theorem ofRaw_brace {cs : List Char} {v : Argument} (h : ofRaw ('\x7b' :: cs) = .ok v) :
    ∃ ms, v = .json (.obj ms) := by
  obtain ⟨doc, rfl, hdoc⟩ := document_of_ofRaw (.inr rfl) h
  obtain ⟨_, hread, _⟩ := Json.parseWithin_ok hdoc
  obtain ⟨ms, rfl⟩ := Json.obj_of_brace hread
  exact ⟨ms, rfl⟩

end Argument

/-! ## Declarations -/

namespace Parameter

/-- **`Accepts`**: a value keeps to what its parameter declares. -/
structure Accepts (p : Parameter) (v : Argument) : Prop where
  notNull : p.isNotNull = true → v ≠ .null
  list : p.isArray = true → v = .null ∨ ∃ items, v = .json (.arr items)
  document : Binding.isDocumentType p.sqlType = true →
    v = .null ∨ (∃ items, v = .json (.arr items)) ∨ ∃ ms, v = .json (.obj ms)

variable {p : Parameter}

/-- Which list it is makes no difference. -/
theorem accepts_list {items : List Json} :
    p.Accepts (.json (.arr items)) :=
  ⟨fun _ => Argument.noConfusion, fun _ => .inr ⟨items, rfl⟩, fun _ => .inr (.inl ⟨items, rfl⟩)⟩

/-- Which object it is makes no difference. -/
theorem accepts_object {ms : Members} : p.Accepts (.json (.obj ms)) ↔ p.isArray = false := by
  refine ⟨fun h => ?_, fun h => ⟨fun _ => Argument.noConfusion, fun hlist => ?_, fun _ => .inr (.inr ⟨ms, rfl⟩)⟩⟩
  · by_contra hlist
    rcases h.list (by simpa using hlist) with hnull | ⟨items, hitems⟩
    · cases hnull
    · cases hitems
  · rw [h] at hlist
    cases hlist

end Parameter

namespace Binding

variable {s : Setting} {vs : Variables} {p : Parameter}

/-- A text suits its parameter if it begins as the parameter needs. -/
theorem suits_ok {raw : List Char} (h : suits p raw = .ok ()) :
    (p.isNotNull = true → isNullText raw = false) ∧
      (p.isArray = true → isNullText raw = true ∨ raw.head? = some '[') ∧
      (isDocumentType p.sqlType = true →
        isNullText raw = true ∨ raw.head? = some '[' ∨ raw.head? = some '\x7b') := by
  unfold suits at h
  dsimp only at h
  split at h
  case isTrue => cases h
  case isFalse hnull =>
    split at h
    case isTrue => cases h
    case isFalse hlist =>
      split at h
      case isTrue => cases h
      case isFalse hdocument =>
        simp only [Bool.and_eq_true, Bool.not_eq_true', Bool.or_eq_false_iff, beq_eq_false_iff_ne,
          not_and_or, ne_eq, Bool.not_eq_false, Decidable.not_not] at hnull hlist hdocument
        grind

/-- **`accepts_ofRaw`**: a request variable that suits its parameter is decoded to a value that keeps to the
declaration. -/
theorem accepts_ofRaw {raw : List Char} {v : Argument}
    (hnull : raw.head? = some 'n' → raw = ['n', 'u', 'l', 'l']) (hsuits : suits p raw = .ok ())
    (hv : Argument.ofRaw raw = .ok v) : p.Accepts v := by
  obtain ⟨hnot, hlist, hdocument⟩ := suits_ok hsuits
  have hnone (h : isNullText raw = true) : v = .null := by
    rw [Argument.ofRaw_null h] at hv
    exact (Except.ok.inj hv).symm
  have hbracket (h : raw.head? = some '[') : ∃ items, v = .json (.arr items) := by
    obtain ⟨cs, rfl⟩ := List.head?_eq_some_iff.mp h
    exact Argument.ofRaw_bracket hv
  have hbrace (h : raw.head? = some '\x7b') : ∃ ms, v = .json (.obj ms) := by
    obtain ⟨cs, rfl⟩ := List.head?_eq_some_iff.mp h
    exact Argument.ofRaw_brace hv
  refine ⟨fun h hv' => ?_, fun h => (hlist h).imp hnone hbracket,
    fun h => (hdocument h).imp hnone (Or.imp hbracket hbrace)⟩
  -- a value that is null comes from a text that is
  rw [hv'] at hv
  have htext := hnull (Argument.head?_of_ofRaw_null hv)
  rw [htext] at hnot
  exact absurd (hnot h) (by decide)

/-! ## Sources -/

/-- **`Warranted`**: the source of a parameter's value warrants that the value keeps to the declaration. A
request variable always does, a default if it keeps to the declaration itself. -/
def Setting.Warranted (s : Setting) (vs : Variables) (p : Parameter) : Prop :=
  (vs.raw? p.name).isSome = true ∨ ∃ v, s.defaults.lookup p.name = some v ∧ p.Accepts v

theorem accepts_bindVariable (hvs : vs.Legible) {v : Argument}
    (hv : bindVariable p vs s.defaults = .ok v) : p.Accepts v ↔ s.Warranted vs p := by
  unfold bindVariable at hv
  unfold Setting.Warranted
  cases hraw : vs.raw? p.name with
  | some raw =>
    rw [hraw] at hv
    dsimp only at hv
    cases hsuits : suits p raw with
    | error e =>
      rw [hsuits] at hv
      cases hv
    | ok _ =>
      rw [hsuits] at hv
      exact iff_of_true (accepts_ofRaw (hvs.raw? hraw) hsuits hv) (.inl rfl)
  | none =>
    rw [hraw] at hv
    cases hdefault : s.defaults.lookup p.name with
    | none =>
      rw [hdefault] at hv
      cases hv
    | some d =>
      rw [hdefault] at hv
      cases hv
      simp

/-- Completing the arguments does not change whether a value keeps to the declaration. -/
theorem Setting.Completes.accepts {v v' : Argument} (h : s.Completes v v') :
    p.Accepts v' ↔ p.Accepts v := by
  rcases h with rfl | ⟨_, ⟨items, items', rfl, rfl⟩ | ⟨ms, ms', rfl, rfl⟩⟩
  · exact Iff.rfl
  · exact iff_of_true Parameter.accepts_list Parameter.accepts_list
  · rw [Parameter.accepts_object, Parameter.accepts_object]

/-! ## Binding -/

/-- Computations one after the other, each with what holds of its result. -/
theorem draws_mapM {α β : Type} {f : α → Drawing β} {P : α → β → Prop}
    (h : ∀ a, Draws (f a) (P a)) (as : List α) :
    Draws (as.mapM f) fun bs => bs.length = as.length ∧
      ∀ (i : Nat) (a : α), as[i]? = some a → ∃ b, bs[i]? = some b ∧ P a b := by
  induction as with
  | nil => exact draws_pure ⟨rfl, fun i a ha => by cases ha⟩
  | cons a as ih =>
    rw [List.mapM_cons]
    refine (h a).bind fun b hb => ih.bind fun bs hbs => draws_pure ⟨congrArg (· + 1) hbs.1, ?_⟩
    intro i x hx
    cases i with
    | zero =>
      cases hx
      exact ⟨b, rfl, hb⟩
    | succ i => exact hbs.2 i x hx

/-- Each bound value keeps to the declaration of its parameter if its source warrants that. -/
theorem draws_accepts (hvs : vs.Legible) (asJson : Bool) :
    Draws (bind s asJson vs) fun bound =>
      ∀ (i : Nat) (p : Parameter), s.parameters[i]? = some p → Ordinary p.name →
        ∃ v, bound.values[i]? = some v ∧ (p.Accepts v ↔ s.Warranted vs p) := by
  rw [bind]
  have hvalues := draws_mapM (f := bindParameter s vs)
    (P := fun p v => Ordinary p.name → bindVariable p vs s.defaults = .ok v)
    (fun p supply v supply' hrun hp => draws_bindParameter hp supply v supply' hrun) s.parameters
  refine hvalues.bind fun values hvalues => ?_
  obtain ⟨hlength, heach⟩ := hvalues
  refine (completes_augment hlength).bind fun out hout => draws_pure fun i p hp hordinary => ?_
  obtain ⟨v, hv, hbound⟩ := heach i p hp
  obtain ⟨v', hv', hcompletes⟩ := hout.2 i v hv
  exact ⟨v', hv', hcompletes.accepts.trans (accepts_bindVariable hvs (hbound hordinary))⟩

/-- A variable that is null does not suit a parameter that is not. -/
theorem bindVariable_null (hnot : p.isNotNull = true)
    (hraw : vs.raw? p.name = some ['n', 'u', 'l', 'l']) (defaults : Defaults) :
    bindVariable p vs defaults = .error (.nullNotAllowed p.name) := by
  have hsuits : suits p ['n', 'u', 'l', 'l'] = .error (.nullNotAllowed p.name) := by
    unfold suits
    rw [hnot]
    rfl
  rw [bindVariable, hraw]
  dsimp only
  rw [hsuits]
  rfl

/-- A parameter that does not resolve fails the request, if no parameter before it has. -/
theorem run_bind_error {front behind : List Parameter} {e : Failure}
    (hps : s.parameters = front ++ p :: behind)
    (hp : ∀ supply, (bindParameter s vs p).run.run supply = (.error e, supply)) (asJson : Bool)
    (supply : Supply) : ((bind s asJson vs).run.run supply).1 =
      match ((front.mapM (bindParameter s vs)).run.run supply).1 with
      | .ok _ => .error e
      | .error e' => .error e' := by
  rw [bind, run_bind, hps, List.mapM_append, run_bind]
  rcases (front.mapM (bindParameter s vs)).run.run supply with ⟨e' | values, supply'⟩
  · rfl
  · dsimp only
    rw [run_bind, List.mapM_cons, run_bind, hp]

/-- **`accepts_of_bind`**: if binding succeeds, the value of every parameter that is not reserved keeps to the
declaration if its source warrants that, and only then. A request variable that is null fails a parameter that
is not null, and with it the request, unless a parameter before it has failed. -/
theorem accepts_of_bind {text : List Char} (hvs : Variables.parse text = some vs) (asJson : Bool)
    (supply : Supply) :
    let outcome := ((bind s asJson vs).run.run supply).1
    (∀ bound, outcome = .ok bound → ∀ (i : Nat) (p : Parameter), s.parameters[i]? = some p →
        Ordinary p.name → ∃ v, bound.values[i]? = some v ∧ (p.Accepts v ↔ s.Warranted vs p)) ∧
      (∀ front p behind, s.parameters = front ++ p :: behind → Ordinary p.name →
        p.isNotNull = true → vs.raw? p.name = some ['n', 'u', 'l', 'l'] →
        outcome = match ((front.mapM (bindParameter s vs)).run.run supply).1 with
          | .ok _ => .error (.nullNotAllowed p.name)
          | .error e => .error e) := by
  refine ⟨fun bound h => ?_, fun front p behind hps hp hnot hraw => ?_⟩
  · exact draws_accepts (Variables.legible_parse hvs) asJson supply bound _ (Prod.ext h rfl)
  · refine run_bind_error hps (fun supply => ?_) asJson supply
    rw [run_ordinary hp, bindVariable_null hnot hraw]

/-! ## A default that breaks the declaration -/

/-- **`EveryBoundAccepted`**: whatever its source, the value of a parameter that is not reserved keeps to the
declaration. -/
def EveryBoundAccepted : Prop :=
  ∀ (s : Setting) (text : List Char) (vs : Variables) (asJson : Bool) (supply : Supply) (bound : Bound),
    Variables.parse text = some vs → ((bind s asJson vs).run.run supply).1 = .ok bound →
    ∀ (i : Nat) (p : Parameter), s.parameters[i]? = some p → Ordinary p.name →
      ∃ v, bound.values[i]? = some v ∧ p.Accepts v

/-- The ids that are looked up, and a title that is not null but has null for its default. -/
def listing : Setting where
  plan := { tagging.plan with operation := .query, nodes := [], actionVariable := none }
  parameters := [⟨"ids", "text", true, true⟩, ⟨"title", "text", true, false⟩]
  rules := []
  camel := false
  identity := Identity.anonymous
  defaults := [("title", .null)]

/-- A request that gives the ids and no title. -/
def someIds : Variables := [("ids", "[\"7\", \"9\"]".toList)]

theorem parse_someIds : Variables.parse "\x7b\"ids\": [\"7\", \"9\"]\x7d".toList = some someIds := by
  decide +kernel

theorem accepts_of_bind_listing :
    (∃ bound v, ((bind listing false someIds).run.run ⟨fun _ _ => .null, []⟩).1 = .ok bound ∧
      bound.values[0]? = some v ∧ Parameter.Accepts ⟨"ids", "text", true, true⟩ v) ∧
    ((bind listing false [("ids", ['n', 'u', 'l', 'l'])]).run.run ⟨fun _ _ => .null, []⟩).1 =
      .error (.nullNotAllowed "ids") := by
  have hordinary : Ordinary "ids" := ⟨by decide, by decide, by decide⟩
  constructor
  · have hok : (match ((bind listing false someIds).run.run ⟨fun _ _ => .null, []⟩).1 with
        | .ok _ => true
        | .error _ => false) = true := by decide +kernel
    split at hok
    case h_1 bound hbound =>
      obtain ⟨v, hv, haccepts⟩ :=
        (accepts_of_bind parse_someIds false _).1 bound hbound 0 _ rfl hordinary
      exact ⟨bound, v, hbound, hv, haccepts.mpr (.inl rfl)⟩
    case h_2 => cases hok
  · have hparse : Variables.parse "\x7b\"ids\":null\x7d".toList =
        some [("ids", ['n', 'u', 'l', 'l'])] := by decide +kernel
    exact (accepts_of_bind hparse false _).2 [] ⟨"ids", "text", true, true⟩ _ rfl hordinary rfl rfl

/-- **`not_everyBoundAccepted`**: the title is bound to null. -/
theorem not_everyBoundAccepted : ¬ EveryBoundAccepted := by
  intro h
  have hnull : (match ((bind listing false someIds).run.run ⟨fun _ _ => .null, []⟩).1 with
      | .ok bound => bound.values[1]?.map Argument.isNull
      | .error _ => none) = some true := by decide +kernel
  split at hnull
  case h_1 bound hbound =>
    obtain ⟨v, hv, haccepts⟩ := h listing _ someIds false _ bound parse_someIds hbound 1 _ rfl
      ⟨by decide, by decide, by decide⟩
    rw [hv] at hnull
    -- the value at the place of the title is null
    cases v with
    | null => exact haccepts.notNull rfl rfl
    | _ => cases hnull
  case h_2 => cases hnull

end Binding

end Amend
