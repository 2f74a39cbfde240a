import GuestHarness.Wasm.Typing.Module
import GuestHarness.Wasm.Instantiation
import GuestHarness.Wasm.Text
import GuestHarness.Proofs.Wasm.Preservation

/-! Valid modules: as a program, linked with functions that answer with results of their types, they are
typed, and so are their global variables when the program begins. -/
namespace GuestHarness.Wasm.Typing

variable {m : Module} {functions : Array FuncType}

/-- What is known of the functions, the variables and the start function of a valid module. -/
structure Valid (m : Module) (functions : Array FuncType) : Prop where
  space : functions = ((m.importedFunctions ++ m.functions).map m.functionType).toArray
  lengths : m.functions.length = m.codes.length
  codes (k : Nat) (t : Nat) (body : Code) (ht : m.functions[k]? = some t)
    (hbody : m.codes[k]? = some body) :
    code (moduleContext m functions) (m.functionType t) body = true
  globals (g : Global) (hg : g ∈ m.globals) :
    constant (moduleContext m functions) m.importedGlobals.toArray g.type.type g.init = true
  start (f : Nat) (hf : m.start = some f) : functions[f]? = some ⟨[], []⟩

/-- Whatever bytes compile to is valid. -/
theorem module_of_compile? {bytes : List UInt8} (h : Module.compile? bytes = some m) :
    Typing.module m = true := by
  have hempty : Typing.module {} = true := by decide +kernel
  unfold Module.compile? at h
  split at h
  · exact (Option.filter_eq_some_iff.1 h).2
  · split at h
    · cases h
    · split at h <;> cases h
      exact hempty

theorem mapM_types_eq_some {ts : List Nat} {us : List FuncType}
    (h : ts.mapM (m.types[·]?) = some us) : us = ts.map m.functionType := by
  induction ts generalizing us with
  | nil => simpa using h.symm
  | cons t ts ih =>
    simp only [List.mapM_cons, Option.bind_eq_bind, Option.bind_eq_some_iff, Option.pure_def,
      Option.some.injEq] at h
    obtain ⟨type, htype, vs, hvs, rfl⟩ := h
    rw [List.map_cons, ← ih hvs, Module.functionType, htype, Option.getD_some]

theorem exists_valid_of_module (h : Typing.module m = true) : ∃ functions, Valid m functions := by
  unfold Typing.module at h
  cases hfunctions : functionTypes? m with
  | none =>
    rw [hfunctions] at h
    cases h
  | some functions =>
    rw [hfunctions] at h
    simp only [Bool.and_eq_true, List.all_eq_true, decide_eq_true_eq] at h
    obtain ⟨⟨⟨⟨⟨⟨⟨⟨⟨-, hglobals⟩, -⟩, -⟩, hstart⟩, -⟩, -⟩, -⟩, hlengths⟩, hcodes⟩ := h
    obtain ⟨us, hus, rfl⟩ := Option.map_eq_some_iff.1 hfunctions
    have hspace := mapM_types_eq_some hus
    refine ⟨us.toArray, by rw [hspace], hlengths, fun k t body ht hbody => ?_, hglobals,
      fun f hf => by simpa [hf] using hstart⟩
    have hzip : (m.functionType t, body) ∈
        (us.toArray.toList.drop m.importedFunctions.length).zip m.codes := by
      refine List.mem_of_getElem? (i := k) (List.getElem?_zip_eq_some.2 ⟨?_, hbody⟩)
      simp [hspace, ht]
    exact hcodes _ hzip

/-- The first functions of a module are the imported ones, in their order; the others go with the code
that defines them. -/
theorem functionSpace_cases {f : Nat} {function : Function}
    (h : m.functionSpace[f]? = some function) :
    (∃ t, m.importedFunctions[f]? = some t ∧ function = .imported (m.functionType t) f) ∨
      ∃ k t body, f = m.importedFunctions.length + k ∧ m.functions[k]? = some t ∧
        m.codes[k]? = some body ∧
        function = .defined (m.functionType t)
          (body.locals.flatMap fun (n, t) => List.replicate n (.zero t)) body.body := by
  simp only [Module.functionSpace, List.getElem?_toArray] at h
  rw [List.getElem?_append] at h
  split at h
  · rw [List.getElem?_mapIdx] at h
    obtain ⟨t, ht, rfl⟩ := Option.map_eq_some_iff.1 h
    exact .inl ⟨t, ht, rfl⟩
  · rename_i hlength
    rw [List.length_mapIdx] at h hlength
    obtain ⟨t, body, ht, hbody, rfl⟩ := List.getElem?_zipWith_eq_some.1 h
    exact .inr ⟨_, t, body, by omega, ht, hbody, rfl⟩

theorem Valid.type_functionSpace (h : Valid m functions) (f : Nat) :
    m.functionSpace[f]?.map Function.type = functions[f]? := by
  have himported : (m.importedFunctions.mapIdx fun i t =>
      Function.imported (m.functionType t) i).map Function.type =
        m.importedFunctions.map m.functionType := by
    refine List.ext_getElem? fun k => ?_
    simp only [List.getElem?_map, List.getElem?_mapIdx, Option.map_map]
    rfl
  have hdefined : (m.functions.zipWith (fun t (body : Code) => Function.defined (m.functionType t)
      (body.locals.flatMap fun (n, t) => List.replicate n (.zero t)) body.body) m.codes).map
        Function.type = m.functions.map m.functionType := by
    have hlengths := h.lengths
    generalize m.functions = ts, m.codes = bodies at hlengths
    induction ts generalizing bodies with
    | nil => rfl
    | cons t ts ih =>
      cases bodies with
      | nil => simp at hlengths
      | cons body bodies => simp [Function.type, ih bodies (by simpa using hlengths)]
  rw [h.space, ← Array.getElem?_map]
  congr 1
  simp only [Module.functionSpace, List.map_toArray, List.map_append, himported, hdefined]

theorem haveTypes_zeros (runs : List (Nat × ValType)) :
    HaveTypes (runs.flatMap fun (n, t) => List.replicate n (.zero t)) (expandLocals runs) := by
  induction runs with
  | nil => exact .nil
  | cons run runs ih =>
    obtain ⟨n, t⟩ := run
    refine HaveTypes.append ?_ ih
    induction n with
    | zero => exact .nil
    | succ n ih' => exact .cons (.zero t) ih'

/-- A constant expression without variables has a value of its type, if it has one. -/
theorem hasType_constant? {c : Context} {is : List Instr} {globals : Array Operand}
    {vs : List Operand} {ts : List ValType} {t : ValType} {v : Operand}
    (h : constant? globals vs is = some v) (his : ∀ i ∈ is, isConstant #[] i = true)
    (hleads : Leads c is ts [t]) (hvs : HaveTypes vs ts) : v.HasType t := by
  induction is generalizing vs ts with
  | nil =>
    rw [leads_nil] at hleads
    subst hleads
    obtain ⟨w, ws, hw, -, rfl⟩ := List.forall₂_cons_right_iff.1 hvs
    cases h
    exact hw
  | cons i is ih =>
    have hi := his i List.mem_cons_self
    have his' := fun j hj => his j (List.mem_cons_of_mem i hj)
    obtain ⟨u, hu, hrest⟩ := exists_instr_of_leads_cons hleads
    have hstraight : i.isStraight := by
      cases i <;> first
        | rfl
        | simp [isConstant] at hi
    obtain ⟨e, w, happly⟩ := exists_of_instr_straight hstraight hu
    obtain ⟨rest, rfl, rfl⟩ := Stack.apply_known.1 happly
    have hrest' := hrest _ rfl
    cases i <;> simp only [isConstant, Bool.false_eq_true] at hi
    case literal l =>
      exact ih h his' hrest' (.cons (.ofLiteral l) hvs)
    case refNull r => exact ih h his' hrest' (.cons (.ref none r) hvs)
    case refFunc f => exact ih h his' hrest' (.cons (.ref (some f) .func) hvs)
    case globalGet x => simp at hi
    case numeric op =>
      simp only [constant?] at h
      split at h
      · rename_i ws happly
        exact ih h his' hrest' (Numeric.haveTypes_apply happly hvs)
      · cases h

namespace Valid

theorem haveTypes_foldl {gs : List Global} {vs : Array Operand} {ts : List ValType} {c : Context}
    (hgs : ∀ g ∈ gs, constant c #[] g.type.type g.init = true) (hvs : HaveTypes vs.toList ts) :
    HaveTypes (gs.foldl (fun vs g =>
        vs.push ((constant? vs [] g.init).getD (.zero g.type.type))) vs).toList
      (ts ++ gs.map fun g => g.type.type) := by
  induction gs generalizing vs ts with
  | nil => simpa using hvs
  | cons g gs ih =>
    have hg := hgs g List.mem_cons_self
    simp only [constant, Bool.and_eq_true, List.all_eq_true] at hg
    have hvalue : ((constant? vs [] g.init).getD (.zero g.type.type)).HasType g.type.type := by
      cases hv : constant? vs [] g.init with
      | none => exact .zero _
      | some v =>
        obtain ⟨his, hleads⟩ := hg
        split at hleads
        · rename_i s hs
          exact hasType_constant? hv his ⟨s, hs, hleads⟩ .nil
        · cases hleads
    have hpushed : HaveTypes
        (vs.push ((constant? vs [] g.init).getD (.zero g.type.type))).toList
        (ts ++ [g.type.type]) := by
      simpa using hvs.append (.cons hvalue .nil)
    simpa using ih (fun g' hg' => hgs g' (List.mem_cons_of_mem g hg')) hpushed

/-- The global variables begin with values of their types, if none is imported. -/
theorem suits {σ : Type} (h : Valid m functions) (hnone : m.importedGlobals = [])
    (memories : Array Memory) (host : σ) :
    (moduleContext m functions).Suits (m.initialStore memories host) := by
  have hglobals := h.globals
  rw [hnone] at hglobals
  have hempty : HaveTypes (#[] : Array Operand).toList [] := .nil
  have htyped := (haveTypes_foldl hglobals hempty).typedAt
  simpa [Context.Suits, moduleContext, Module.globalTypes, hnone, Module.initialStore,
    Module.initialGlobals, Function.comp_def] using htyped

/-- A valid module makes a typed program, when what is linked for each import keeps its type. -/
theorem types {σ ε : Type} (h : Valid m functions) {imported : List Nat} {base : Nat}
    {call : Caller → Nat → List Operand → Array Memory → σ → σ × Except ε (List Operand)}
    {fuel cap : Option Nat}
    (hcall : ∀ (index t : Nat), m.importedFunctions[index]? = some t →
      ∀ (caller : Caller) (args results : List Operand) (memories : Array Memory) (host : σ),
        HaveTypes args (m.functionType t).params →
        (call caller index args memories host).2 = .ok results →
        HaveTypes results (m.functionType t).results) :
    Types (moduleContext m functions) (m.program imported base call fuel cap) where
  types := rfl
  functions := h.type_functionSpace
  bodies {f type locals is} hf := by
    rcases functionSpace_cases hf with ⟨t, -, hfunction⟩ | ⟨k, t, body, -, ht, hbody, hfunction⟩
    · cases hfunction
    · cases hfunction
      have hcode := h.codes k t body ht hbody
      simp only [code, Bool.and_eq_true] at hcode
      exact ⟨_, haveTypes_zeros body.locals, hcode.2⟩
  imports {f type index} hf {caller args results memories host} hargs hanswer := by
    rcases functionSpace_cases hf with ⟨t, ht, hfunction⟩ | ⟨k, t, body, -, -, -, hfunction⟩
    · cases hfunction
      exact hcall f t ht caller args results memories host hargs hanswer
    · cases hfunction

end Valid
end GuestHarness.Wasm.Typing
