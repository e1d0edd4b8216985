import LibCxxRt.Demangle.Gnu3.Lemmas.Signature

/-!
This module determines that the demangler turns the encoding of a type, of a variable and of a function into
what the printer prints for it.
-/

namespace LibCxxRt

namespace Demangle

namespace Gnu3

variable {env : Env} {d : CppDemangleData} {s : List Byte}

-- the state behind `dataInit`
def initialized (env : Env) (cur : Nat) : CppDemangleData :=
  { initial env with cur := cur, mallocs := 5 }

theorem dataInit_initial (hmalloc : ∀ n, env.malloc n = true) (cur : Nat)
    : dataInit cur (initial env) = .ok ((), initialized env cur) := by
  have hstep (d : CppDemangleData) (hd : d.env = env) := malloc_of_malloc (d := d) (by rw [hd]; exact hmalloc)
  unfold dataInit
  rw [Util.Prog.bind_of_ok (hstep _ rfl), Util.Prog.bind_of_ok (hstep _ rfl), Util.Prog.bind_of_ok (hstep _ rfl),
    Util.Prog.bind_of_ok (hstep _ rfl), Util.Prog.bind_of_ok (hstep _ rfl)]
  rfl

theorem shows_start (hmalloc : ∀ n, env.malloc n = true) {n : Nat} (hn : n ≤ env.org.strlen)
    : Shows (initialized env n) (.start (env.org.bytes.drop n)) where
  malloc := hmalloc
  cur := hn
  input := rfl
  fresh := ⟨fun _ hs => absurd hs List.not_mem_nil, List.nodup_nil⟩
  outputs := ⟨[], .empty Str VECTOR_DEF_CAPACITY, rfl, rfl, .nil, rfl, by decide⟩
  subst := ⟨rfl, (by decide : 0 < VECTOR_DEF_CAPACITY)⟩
  tmpl := ⟨rfl, (by decide : 0 < VECTOR_DEF_CAPACITY)⟩
  mode := rfl
  isTmpl := rfl
  sname _ hs := nomatch hs
  cmd := ⟨rfl, (by decide : 0 < VECTOR_DEF_CAPACITY)⟩
  mem := rfl
  refQualifier := rfl

-- the strings of the result so far
structure Draft where
  strs : List CString
  mem : MemQualifiers

structure ShowsDraft (d : CppDemangleData) (v : Draft) : Prop where
  malloc : ∀ n, d.env.malloc n = true
  output : ∃ o vs, d.outputs = o :: vs ∧ Holds o v.strs
  mem : ⟨d.memRst, d.memVat, d.memCst, d.memRef, d.memRref⟩ = v.mem

abbrev Drafts {α : Type} (m : P α) (v : Draft) (a : α) (v' : Draft) : Prop :=
  Util.Yields ShowsDraft m v a v'

theorem getOutput_drafts (v : Draft)
    : Util.Evaluates ShowsDraft (getOutput 0) v fun o v' => Holds o v.strs ∧ v' = v := by
  intro d hd
  rcases hd.output with ⟨o, vs, houtputs, ho⟩
  have hget : d.outputs[0]? = some o := by
    rw [houtputs]
    rfl
  exact ⟨o, d, v, getOutput_of_eq hget, hd, ho, rfl⟩

theorem vecPushStr_drafts {u : VectorStr} {strs : List CString} (hu : Holds u strs) (s : String) (v : Draft)
    : Util.Evaluates ShowsDraft (vecPushStr u (ascii s)) v fun w v' => Holds w (strs ++ [lit s]) ∧ v' = v := by
  intro d hd
  rcases vectorStrPush_of_malloc hd.malloc hu.2 (ascii s) (ascii s).length with ⟨w, n, hpush, hitems, hcapacity⟩
  refine ⟨w, { d with mallocs := d.mallocs + (n + 1) }, v, ?_, { hd with malloc := hd.malloc }, ⟨?_, hcapacity⟩, rfl⟩
  . unfold vecPushStr vecPush
    rw [Util.Prog.bind_of_ok hpush]
    rfl
  . rw [texts_of_items hitems, hu.1]
    rfl

theorem pushOutputIf_drafts (c : Bool) (s : String) (v : Draft)
    : Drafts (pushOutputIf c s) v () { v with strs := v.strs ++ textIf c s } := by
  cases c with
  | false =>
    have hnil : v.strs ++ textIf false s = v.strs := List.append_nil _
    rw [hnil]
    exact Util.Yields.pure _ _
  | true =>
    apply Util.Evaluates.bind (getOutput_drafts v)
    rintro o _ ⟨ho, rfl⟩
    apply Util.Evaluates.bind (vecPushStr_drafts ho s _)
    rintro w v ⟨hw, rfl⟩
    apply Util.Evaluates.modify
    intro d hd
    rcases hd.output with ⟨o, vs, houtputs, _⟩
    refine ⟨hd.malloc, ⟨w, vs, ?_, hw⟩, hd.mem⟩
    show d.outputs.set 0 w = w :: vs
    rw [houtputs]
    rfl

theorem pushSuffixes_drafts (td : TypeDelimit) (v : Draft)
    : Drafts (pushSuffixes td) v () { v with strs := v.strs ++ textIf td.paren ")" ++ v.mem.texts } := by
  have htexts : v.strs ++ textIf td.paren ")" ++ v.mem.texts
      = (((((v.strs ++ textIf td.paren ")") ++ textIf v.mem.vat " volatile") ++ textIf v.mem.cst " const")
          ++ textIf v.mem.rst " restrict") ++ textIf v.mem.ref " &") ++ textIf v.mem.rref " &&" := by
    simp [MemQualifiers.texts]
  rw [htexts]
  apply Util.Yields.bind (pushOutputIf_drafts _ _ _)
  apply Util.Evaluates.get_bind
  intro d hd
  have hvat : d.memVat = v.mem.vat := congrArg MemQualifiers.vat hd.mem
  have hcst : d.memCst = v.mem.cst := congrArg MemQualifiers.cst hd.mem
  have hrst : d.memRst = v.mem.rst := congrArg MemQualifiers.rst hd.mem
  have href : d.memRef = v.mem.ref := congrArg MemQualifiers.ref hd.mem
  have hrref : d.memRref = v.mem.rref := congrArg MemQualifiers.rref hd.mem
  rw [hvat, hcst, hrst, href, hrref]
  apply Util.Yields.bind (pushOutputIf_drafts _ _ _)
  apply Util.Yields.bind (pushOutputIf_drafts _ _ _)
  apply Util.Yields.bind (pushOutputIf_drafts _ _ _)
  apply Util.Yields.bind (pushOutputIf_drafts _ _ _)
  exact pushOutputIf_drafts _ _ _

theorem flat_drafts {v : Draft} (hlen : (CString.concat v.strs).strlen ≠ 0)
    : Drafts (do vectorStrGetFlat (← getOutput 0)) v (some (.concat v.strs)) v := by
  apply Util.Evaluates.bind (getOutput_drafts v)
  rintro o v ⟨ho, rfl⟩
  intro d hd
  have hsum : getStrlenSum o ≠ 0 := by
    rw [getStrlenSum, ho.1, ← strlen_concat]
    exact hlen
  have hsize : o.size ≠ 0 := by
    intro h
    apply hsum
    have hitems : o.items = [] := List.length_eq_zero_iff.1 h
    simp [getStrlenSum, texts, hitems]
  refine ⟨_, { d with mallocs := d.mallocs + 1 }, v, ?_, { hd with malloc := hd.malloc }, rfl, rfl⟩
  unfold vectorStrGetFlat
  rw [if_neg (by omega), Util.Prog.bind_of_ok (tryMalloc_apply d), if_pos (hd.malloc _), ho.1]
  rfl

theorem Shows.draft {v : View} (h : Shows d v) (hbefore : v.before = [])
    : ShowsDraft d ⟨v.page.output, v.page.mem⟩ := by
  rcases h.outputs with ⟨vs, o, houtputs, _, hvs, ho⟩
  rw [hbefore] at hvs
  cases hvs
  exact ⟨h.malloc, ⟨o, [], houtputs, ho⟩, h.mem⟩

theorem cxaDemangleGnu3_of_ok {o : Option CString}
    (h : demangle env (env.org.strlen + 2) (initial env) = .ok (o, d)) : cxaDemangleGnu3 env = .ok o := by
  unfold cxaDemangleGnu3
  rw [h]

theorem isEncoding_encode {t : Ty} (ht : t.valid = true) (horg : env.org.bytes = t.encode)
    : isEncoding env.org = false := by
  have hstart := t.isTypeStart_headD ht []
  rw [List.append_nil, ← horg] at hstart
  have hne : env.org.bytes.headD 0 ≠ chr '_' := ne_of_isTypeStart hstart rfl
  rw [isEncoding, decide_eq_false_iff_not]
  rintro ⟨_, htake⟩
  cases hbytes : env.org.bytes with
  | nil =>
    rw [hbytes] at htake
    cases htake
  | cons b s =>
    rw [hbytes] at htake hne
    exact hne (List.cons.inj htake).1

/--
The demangler prints for the encoding of a type what the printer prints for the type.
-/
theorem cxaDemangleGnu3_encode_type (hmalloc : ∀ n, env.malloc n = true) {t : Ty} (ht : t.valid = true)
    (horg : env.org.bytes = t.encode) {o : CString} (hprint : t.demangled = some o)
    : cxaDemangleGnu3 env = .ok (some o) := by
  rcases Option.map_eq_some_iff.1 hprint with ⟨page, hpage, rfl⟩
  have hlength : t.encode.length < env.org.strlen + 2 := by
    rw [← horg, CString.strlen]
    omega
  have hread := readPlainType_gives (v := .start []) (s := []) (reads_parsers _ t ht hlength) rfl (by decide) hpage
  have hstart := shows_start hmalloc (Nat.zero_le _)
  rw [List.drop_zero, horg, ← List.append_nil t.encode] at hstart
  rcases hread _ hstart with ⟨_, d, _, hok, hd, rfl, rfl⟩
  have hlen : (CString.concat page.output).strlen ≠ 0 := (t.prints hpage).strlen_since
  rcases flat_drafts hlen _ (hd.draft rfl) with ⟨_, d', _, hflat, _, rfl, _⟩
  apply cxaDemangleGnu3_of_ok (d := d')
  unfold demangle
  rw [if_pos (by rw [isEncoding_encode ht horg]; rfl)]
  unfold demangleType
  rw [Util.Prog.bind_of_ok (dataInit_initial hmalloc 0), Util.Prog.bind_of_ok hok]
  exact hflat

-- what comes before the last output is the result if there is nothing in the last one
theorem Shows.draft_of_before {v : View} {strs : List CString} (h : Shows d v) (hbefore : v.before = [strs])
    : ShowsDraft d ⟨strs, v.page.mem⟩ := by
  rcases h.outputs with ⟨vs, o, houtputs, _, hvs, _⟩
  rw [hbefore] at hvs
  rcases List.forall₂_cons_right_iff.1 hvs with ⟨u, vs, hu, _, rfl⟩
  exact ⟨h.malloc, ⟨u, vs ++ [o], houtputs, hu⟩, h.mem⟩

def fooName : Unqualified :=
  .identifier ⟨lit "foo", by decide, by decide⟩

theorem cxaDemangleGnu3_encode_type_foo
    : cxaDemangleGnu3 (.plain (lit "PFv3fooS_E")) = .ok (some (lit "void (*)(foo, foo)")) :=
  cxaDemangleGnu3_encode_type (fun _ => rfl)
    (t := .qualified .ptr (.function .void [.named (.source fooName []), .subst 0])) rfl rfl rfl

theorem demangle_encoding {s : List Byte} (horg : env.org.bytes = ascii "_Z" ++ s) (fuel : Nat)
    : demangle env fuel = demangleEncoding (parsers fuel) := by
  have hencoding : isEncoding env.org = true := by
    rw [isEncoding, decide_eq_true_iff, horg, CString.strlen, horg]
    exact ⟨Nat.le_add_left 2 s.length, rfl⟩
  have hglobal : isGlobal env.org = false := by
    rw [isGlobal, decide_eq_false_iff_not, horg]
    rintro ⟨_, h⟩
    have hZ : chr 'Z' = chr 'G' := (List.cons.inj (List.cons.inj h).2).1
    exact absurd hZ (by decide)
  unfold demangle
  rw [if_neg (by simp [hencoding]), if_neg (by simp [hglobal])]

-- the part of `demangleEncoding` in which the name is read
structure Parsed (p : Parsers) (env : Env) (r : TypeDelimit × Bool) (d : CppDemangleData) : Prop where
  steps : ∃ d₁ d₂ d₃ hasRet, readEncoding p (initialized env 2) = .ok ((), d₁) ∧ popFunctionName d₁ = .ok ((), d₂)
    ∧ enterReturnType d₂ = .ok (hasRet, d₃) ∧ readSignature p tries ⟨false, true⟩ hasRet false d₃ = .ok (r, d)

theorem demangleEncoding_of_parsed {p : Parsers} {td : TypeDelimit} {v : Draft}
    (hmalloc : ∀ n, env.malloc n = true) (hparsed : Parsed p env (td, false) d) (hd : ShowsDraft d v)
    (hv : (CString.concat v.strs).strlen ≠ 0)
    : ∃ d', demangleEncoding p (initial env)
        = .ok (some (.concat (v.strs ++ textIf td.paren ")" ++ v.mem.texts)), d') := by
  rcases hparsed.steps with ⟨d₁, d₂, d₃, hasRet, h₁, h₂, h₃, h₄⟩
  have hsize : v.strs ≠ [] := by
    intro h
    rw [h] at hv
    exact hv rfl
  have hrest : Drafts (do
      failIf ((← outputSize 0) = 0)
      pushSuffixes td
      vectorStrGetFlat (← getOutput 0)) v (some (.concat (v.strs ++ textIf td.paren ")" ++ v.mem.texts)))
      { v with strs := v.strs ++ textIf td.paren ")" ++ v.mem.texts } := by
    have hlength : Util.Evaluates ShowsDraft (outputSize 0) v fun n v' => n ≠ 0 ∧ v' = v := by
      apply Util.Evaluates.bind (getOutput_drafts v)
      rintro o w ⟨ho, rfl⟩
      apply Util.Evaluates.pure
      refine ⟨?_, rfl⟩
      rw [ho.size]
      exact fun h => hsize (List.length_eq_zero_iff.1 h)
    apply Util.Evaluates.bind hlength
    rintro n w ⟨hn, rfl⟩
    have hfail : Drafts (failIf (n = 0)) w () w := by
      rw [failIf, if_neg hn]
      exact Util.Yields.pure _ _
    apply Util.Yields.bind hfail
    apply Util.Yields.bind (pushSuffixes_drafts td w)
    apply flat_drafts (v := { w with strs := w.strs ++ textIf td.paren ")" ++ w.mem.texts })
    rw [List.append_assoc]
    exact strlen_append_ne_zero (.inl hv)
  rcases hrest d hd with ⟨_, d', _, hok, _, rfl, _⟩
  refine ⟨d', ?_⟩
  unfold demangleEncoding
  rw [Util.Prog.bind_of_ok (dataInit_initial hmalloc 2), Util.Prog.bind_of_ok h₁, Util.Prog.bind_of_ok h₂,
    Util.Prog.bind_of_ok h₃, Util.Prog.bind_of_ok h₄]
  exact hok

theorem shows_encoding (hmalloc : ∀ n, env.malloc n = true) {s : List Byte} (horg : env.org.bytes = ascii "_Z" ++ s)
    : Shows (initialized env 2) (.start s) := by
  have hlength : 2 ≤ env.org.strlen := by
    rw [CString.strlen, horg]
    exact Nat.le_add_left 2 s.length
  have hstart := shows_start hmalloc hlength
  rw [horg] at hstart
  exact hstart

variable {n : Name} {page : Page} {p : Parsers}

theorem parsed_data (hmalloc : ∀ n, env.malloc n = true) (horg : env.org.bytes = ascii "_Z" ++ n.encode)
    (hvalid : n.valid = true) (h : Reads p n.encode.length) (hprint : n.print .blank = some page)
    : ∃ d, Parsed p env (⟨false, true⟩, false) d ∧ ShowsDraft d ⟨page.output, page.mem⟩ := by
  have hread := readEncoding_gives (v := .start []) (s := []) hvalid h rfl (by decide) hprint
  have hends := n.endsWithArgs_print hvalid hprint
  rw [List.append_nil] at hread
  rcases hread _ (shows_encoding hmalloc horg) with ⟨_, d₁, _, h₁, hd₁, rfl, rfl⟩
  have hpop := popFunctionName_nil (v := (View.start []).setPage page)
  rcases hpop _ hd₁ with ⟨_, d₂, _, h₂, hd₂, rfl, rfl⟩
  cases htmpl : page.isTmpl with
  | false =>
    rcases enterReturnType_gives_false htmpl _ hd₂ with ⟨_, d₃, _, h₃, hd₃, rfl, rfl⟩
    rcases readSignature_nil ⟨false, true⟩ false false _ hd₃ with ⟨_, d₄, _, h₄, hd₄, rfl, rfl⟩
    exact ⟨d₄, ⟨d₁, d₂, d₃, false, h₁, h₂, h₃, h₄⟩, hd₄.draft rfl⟩
  | true =>
    have hlength : 2 ≤ page.output.length := by
      rw [hends.1] at htmpl
      exact hends.2 htmpl
    rcases enterReturnType_gives htmpl hlength _ hd₂ with ⟨_, d₃, _, h₃, hd₃, rfl, rfl⟩
    have hnil := readSignature_nil (p := p) (v := ((View.start []).setPage page).enterReturn hlength)
      (n := CPP_DEMANGLE_TRY_LIMIT + 1) ⟨false, true⟩ true false
    rcases hnil _ hd₃ with ⟨_, d₄, _, h₄, hd₄, rfl, rfl⟩
    exact ⟨d₄, ⟨d₁, d₂, d₃, true, h₁, h₂, h₃, h₄⟩, hd₄.draft_of_before rfl⟩

variable {params : List Ty} {page' : Page}

theorem parsed_function (hmalloc : ∀ n, env.malloc n = true)
    (horg : env.org.bytes = ascii "_Z" ++ (n.encode ++ encodeParams params)) (hvalid : n.valid = true)
    (htmpl : n.isTemplate = false) (hparams : validParams params = true) (htries : params.length + 1 ≤ tries)
    (h : Reads p n.encode.length) (hreads : ∀ t ∈ params, ReadsType p t) (hnone : ReadsNone p)
    (hprint : n.print .blank = some page) (hprints : printParams params page.dropCandidate = some page')
    : ∃ d, Parsed p env (⟨true, false⟩, false) d ∧ ShowsDraft d ⟨page'.output, page'.mem⟩ := by
  have hstart := encodeParams_isTypeStart hparams []
  rw [List.append_nil] at hstart
  have hread := readEncoding_gives (v := .start []) (s := encodeParams params) hvalid h rfl
    (ne_of_isTypeStart hstart rfl) hprint
  rcases hread _ (shows_encoding hmalloc horg) with ⟨_, d₁, _, h₁, hd₁, rfl, rfl⟩
  have hpop := popFunctionName_gives (v := (View.start []).setPage page) (ne_zero_of_isTypeStart hstart)
  rcases hpop _ hd₁ with ⟨_, d₂, _, h₂, hd₂, rfl, rfl⟩
  have hends := n.endsWithArgs_print hvalid hprint
  rcases enterReturnType_gives_false (hends.1.trans htmpl) _ hd₂ with ⟨_, d₃, _, h₃, hd₃, rfl, rfl⟩
  have houtput : page.dropCandidate.output ≠ [] := by
    have hlength := (n.prints hprint).length
    exact List.length_pos_iff.1 hlength
  have hsignature := readSignatureParams_gives (v := (View.start []).setPage page.dropCandidate) false hparams
    htries (by decide) hreads hnone houtput rfl hprints
  rcases hsignature _ hd₃ with ⟨_, d₄, _, h₄, hd₄, rfl, rfl⟩
  exact ⟨d₄, ⟨d₁, d₂, d₃, false, h₁, h₂, h₃, h₄⟩, hd₄.draft rfl⟩

theorem parsed_template {t : Ty} {page'' : Page} (hmalloc : ∀ n, env.malloc n = true)
    (horg : env.org.bytes = ascii "_Z" ++ (n.encode ++ (t.encode ++ encodeParams params))) (hvalid : n.valid = true)
    (htmpl : n.isTemplate = true) (ht : t.valid = true) (hparams : validParams params = true)
    (htries : params.length + 2 ≤ tries)
    (h : Reads p n.encode.length) (hreads : ∀ t' ∈ t :: params, ReadsType p t') (hnone : ReadsNone p)
    (hprint : n.print .blank = some page) (hreturn : printReturn (some t) page.dropCandidate = some page')
    (hprints : printParams params page' = some page'')
    : ∃ d, Parsed p env (⟨true, false⟩, false) d ∧ ShowsDraft d ⟨page''.output, page''.mem⟩ := by
  have hstart := t.isTypeStart_headD ht (encodeParams params)
  have hread := readEncoding_gives (v := .start []) (s := t.encode ++ encodeParams params) hvalid h rfl
    (ne_of_isTypeStart hstart rfl) hprint
  rcases hread _ (shows_encoding hmalloc horg) with ⟨_, d₁, _, h₁, hd₁, rfl, rfl⟩
  have hpop := popFunctionName_gives (v := (View.start []).setPage page) (ne_zero_of_isTypeStart hstart)
  rcases hpop _ hd₁ with ⟨_, d₂, _, h₂, hd₂, rfl, rfl⟩
  have hends := n.endsWithArgs_print hvalid hprint
  have hlength : 2 ≤ page.output.length := hends.2 htmpl
  rcases enterReturnType_gives (hends.1.trans htmpl) hlength _ hd₂ with ⟨_, d₃, _, h₃, hd₃, rfl, rfl⟩
  rcases Option.map_eq_some_iff.1 hreturn with ⟨page₁, hpage₁, rfl⟩
  have hstart' := encodeParams_isTypeStart hparams []
  rw [List.append_nil] at hstart'
  have hnext := readSignatureParams_gives (p := p) (v :=
      ((((View.start []).setPage page.dropCandidate).enterReturn hlength).setPage page₁).leaveReturn page.output)
    (n := tries - 1) true hparams (by omega) (by decide)
    (fun t' ht' => hreads t' (List.mem_cons_of_mem _ ht')) hnone (by simp [View.leaveReturn]) rfl hprints
  have hsignature := readSignatureReturn (n := tries - 1) ⟨false, true⟩
    (v := ((View.start []).setPage page.dropCandidate).enterReturn hlength) ht
    (hreads t List.mem_cons_self) rfl rfl (ne_of_isTypeStart hstart' rfl) hpage₁ hnext
  rcases hsignature _ hd₃ with ⟨_, d₄, _, h₄, hd₄, rfl, rfl⟩
  exact ⟨d₄, ⟨d₁, d₂, d₃, true, h₁, h₂, h₃, h₄⟩, hd₄.draft rfl⟩

theorem demangle_of_parsed {td : TypeDelimit} {v : Draft} {s : List Byte}
    (hmalloc : ∀ n, env.malloc n = true) (horg : env.org.bytes = ascii "_Z" ++ s)
    (hv : (CString.concat v.strs).strlen ≠ 0)
    (h : ∃ d, Parsed (parsers (env.org.strlen + 2)) env (td, false) d ∧ ShowsDraft d v)
    : ∃ d, demangle env (env.org.strlen + 2) (initial env)
        = .ok (some (.concat (v.strs ++ textIf td.paren ")" ++ v.mem.texts)), d) := by
  rcases h with ⟨d, hparsed, hd⟩
  rw [demangle_encoding horg]
  exact demangleEncoding_of_parsed hmalloc hparsed hd hv

theorem Prints.strlen_output {p p' : Page} (h : Prints p p') : (CString.concat p'.output).strlen ≠ 0 := by
  rcases h.output with ⟨strs, houtput, _⟩
  have hsince := h.strlen_since
  rw [Page.since, houtput, List.drop_left] at hsince
  rw [houtput]
  exact strlen_append_ne_zero (.inr hsince)

theorem demangle_encode (hmalloc : ∀ n, env.malloc n = true) {e : Encoding} (he : e.valid = true)
    (horg : env.org.bytes = e.encode) {o : CString} (hprint : e.demangled = some o)
    : ∃ d, demangle env (env.org.strlen + 2) (initial env) = .ok (some o, d) := by
  have hlength : e.encode.length < env.org.strlen + 2 := by
    rw [← horg, CString.strlen]
    omega
  have hreads := reads_parsers (env.org.strlen + 2)
  have hnone : ReadsNone (parsers (env.org.strlen + 2)) := readsNone_parsers _
  cases e with
  | data n =>
    rcases Option.map_eq_some_iff.1 hprint with ⟨page, hpage, rfl⟩
    rw [Encoding.encode, List.length_append] at hlength
    have hn : n.encode.length ≤ env.org.strlen + 2 := by omega
    have hparsed := parsed_data hmalloc horg he (hreads.mono hn) hpage
    rcases demangle_of_parsed hmalloc horg (n.prints hpage).strlen_output hparsed with ⟨d, hok⟩
    refine ⟨d, hok.trans ?_⟩
    simp [textIf]
  | function n ret params =>
    rcases Option.bind_eq_some_iff.1 hprint with ⟨page, hpage, hprint⟩
    rcases Option.bind_eq_some_iff.1 hprint with ⟨page₁, hreturn, hprint⟩
    rcases Option.map_eq_some_iff.1 hprint with ⟨page₂, hparams, rfl⟩
    simp only [Encoding.encode, List.length_append] at hlength
    have hn : n.encode.length ≤ env.org.strlen + 2 := by omega
    have hlen := (prints_printParams params hparams).strlen_output
    have hread (t : Ty) (ht : t.valid = true)
        (hlt : t.encode.length ≤ (encodeReturn ret).length + (encodeParams params).length)
        : ReadsType (parsers (env.org.strlen + 2)) t := by
      apply hreads t ht
      omega
    have hreadParams (hvalid : validParams params = true) (t : Ty) (ht : t ∈ params)
        : ReadsType (parsers (env.org.strlen + 2)) t := by
      have hle := length_encode_le_encodeParams ht
      apply hread t (valid_of_mem (validTypes_of_validParams hvalid) ht)
      omega
    cases ret with
    | none =>
      rw [printReturn] at hreturn
      cases hreturn
      simp only [Encoding.valid, Bool.and_eq_true, Bool.not_eq_true', decide_eq_true_eq] at he
      obtain ⟨⟨⟨hvalid, htmpl⟩, hvalids⟩, htries⟩ := he
      have hparsed := parsed_function hmalloc horg hvalid htmpl hvalids htries (hreads.mono hn)
        (hreadParams hvalids) hnone hpage hparams
      rcases demangle_of_parsed hmalloc horg hlen hparsed with ⟨d, hok⟩
      refine ⟨d, hok.trans ?_⟩
      simp [textIf]
    | some t =>
      simp only [Encoding.valid, Bool.and_eq_true, decide_eq_true_eq] at he
      obtain ⟨⟨⟨⟨hvalid, htmpl⟩, ht⟩, hvalids⟩, htries⟩ := he
      have hreadAll (t' : Ty) (ht' : t' ∈ t :: params) : ReadsType (parsers (env.org.strlen + 2)) t' := by
        rcases List.mem_cons.1 ht' with rfl | ht'
        . apply hread _ ht
          exact Nat.le_add_right _ _
        . exact hreadParams hvalids t' ht'
      have hparsed := parsed_template hmalloc horg hvalid htmpl ht hvalids htries (hreads.mono hn) hreadAll hnone
        hpage hreturn hparams
      rcases demangle_of_parsed hmalloc horg hlen hparsed with ⟨d, hok⟩
      refine ⟨d, hok.trans ?_⟩
      simp [textIf]

/--
The demangler prints for the mangled name of a variable or a function what the printer prints for it. The
templates among the functions have a return type.
-/
theorem cxaDemangleGnu3_encode (hmalloc : ∀ n, env.malloc n = true) {e : Encoding} (he : e.valid = true)
    (horg : env.org.bytes = e.encode) {o : CString} (hprint : e.demangled = some o)
    : cxaDemangleGnu3 env = .ok (some o) := by
  rcases demangle_encode hmalloc he horg hprint with ⟨d, hok⟩
  exact cxaDemangleGnu3_of_ok hok

theorem cxaDemangleGnu3_encode_foo
    : cxaDemangleGnu3 (.plain (lit "_Z3fooIiEvT_PKS0_")) = .ok (some (lit "void foo<int>(int, int const*)")) :=
  cxaDemangleGnu3_encode (fun _ => rfl)
    (e := .function (.source fooName [.builtin ('i', "int") (by decide)]) (some .void)
      [.param 0, .qualified .ptr (.qualified .cst (.subst 1))]) rfl rfl rfl

end Gnu3

end Demangle

end LibCxxRt
