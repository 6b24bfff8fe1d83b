import JointSpend.Proofs.Merge.Commutativity
import JointSpend.Proofs.Psbt.Clean

set_option autoImplicit false
set_option relaxedAutoImplicit false

/-!
# Assembling many copies

What several clean copies are merged to is described without saying in which order they were merged:
retained records come from all copies, the other records of an input from its final copies if it has
any, and from its open ones otherwise. Every way to bring the copies together two at a time keeps to
this description, which only one copy satisfies.

## Main definitions

* `JointSpend.InputMap.AssembledFrom`, `JointSpend.Psbt.AssembledFrom` — the description.
* `JointSpend.Bracketing` — a way to bring copies together two at a time.

## Main results

* `JointSpend.InputMap.AssembledFrom.joined`, `JointSpend.Psbt.AssembledFrom.merge` — one merge
  keeps to the description.
* `JointSpend.Psbt.AssembledFrom.unique` — only one copy satisfies it.
* `JointSpend.Psbt.assembly_order_irrelevant` — order and grouping do not matter.
-/

namespace JointSpend

/-! ## Inputs -/

namespace InputMap

/-- A list of copies of an input supplies a record when it is in one of them, and that copy is as
final as the input that is assembled, or the record is retained anyway. -/
def Supplies (xs : List InputMap) (final : Bool) (k : InputKey) (v : k.Value) : Prop :=
  ∃ x ∈ xs, (k.isRetained = true ∨ isFinal x = final) ∧ x.get? k = some v

/-- Two lists supply what either of them does. -/
private theorem supplies_append {xs ys : List InputMap} {final : Bool} {k : InputKey}
    {v : k.Value} :
    Supplies (xs ++ ys) final k v ↔ Supplies xs final k v ∨ Supplies ys final k v := by
  simp only [Supplies, List.mem_append, or_and_right, exists_or]

/-- Retained records are supplied whether the input is final or not. -/
private theorem supplies_of_retained {xs : List InputMap} {k : InputKey} (hk : k.isRetained = true)
    (final : Bool) {v : k.Value} : Supplies xs final k v ↔ ∃ x ∈ xs, x.get? k = some v := by
  simp only [Supplies, hk, true_or, true_and]

/-- Other records are supplied by the copies that are as final. -/
private theorem supplies_of_not_retained {xs : List InputMap} {k : InputKey}
    (hk : k.isRetained = false) {final : Bool} {v : k.Value} :
    Supplies xs final k v ↔ ∃ x ∈ xs, isFinal x = final ∧ x.get? k = some v := by
  simp only [Supplies, hk, Bool.false_eq_true, false_or]

/-- An input as it is assembled from copies of it: it is final when one of the copies is, and holds
what they supply. -/
structure AssembledFrom (xs : List InputMap) (m : InputMap) : Prop where
  final : isFinal m = xs.any isFinal
  records : ∀ k v, m.get? k = some v ↔ Supplies xs (isFinal m) k v

namespace AssembledFrom

variable {xs ys : List InputMap} {m n : InputMap}

/-- A copy is assembled from itself. -/
theorem singleton (m : InputMap) : AssembledFrom [m] m :=
  ⟨by simp, by simp [Supplies]⟩

/-- The copies of an open input are open. -/
theorem open_of_mem (hm : AssembledFrom xs m) (hopen : isFinal m = false) {x : InputMap}
    (hx : x ∈ xs) : isFinal x = false := by
  have hall := hm.final.symm.trans hopen
  rw [List.any_eq_false] at hall
  simpa using hall x hx

/-- A final input has a final copy. -/
theorem exists_final (hm : AssembledFrom xs m) (hfinal : isFinal m = true) :
    ∃ x ∈ xs, isFinal x = true :=
  List.any_eq_true.mp (hm.final.symm.trans hfinal)

/-- The order of the copies and their repetitions do not matter. -/
theorem congr (hm : AssembledFrom xs m) (h : ∀ x, x ∈ xs ↔ x ∈ ys) : AssembledFrom ys m := by
  constructor
  · rw [hm.final, Bool.eq_iff_iff, List.any_eq_true, List.any_eq_true]
    simp only [h]
  · intro k v
    rw [hm.records]
    simp only [Supplies, h]

/-- Only one input is assembled from given copies. -/
theorem unique (hm : AssembledFrom xs m) (hn : AssembledFrom xs n) : m = n := by
  apply RecordMap.ext_get?
  intro k
  apply Option.ext
  intro v
  rw [hm.records, hn.records, hm.final, hn.final]

/-- An input that is final on the first side. What final copies on the other side supply is there
already: final scripts, because the two sides are compatible, and nothing else, because they are
clean. -/
theorem joined_final (hm : AssembledFrom xs m) (hn : AssembledFrom ys n) (hcn : Clean n)
    (h : Compatible m n) (hfm : isFinal m = true) :
    AssembledFrom (xs ++ ys) (m.fill InputKey.isRetained n) := by
  have hfinal : isFinal (m.fill InputKey.isRetained n) = true := by
    rw [isFinal_fill (fun _ => InputKey.isUnited_of_isRetained), hfm]
  refine ⟨by rw [hfinal, List.any_append, ← hm.final, hfm, Bool.true_or], fun k v => ?_⟩
  rw [hfinal, supplies_append]
  cases hk : k.isRetained with
  | true =>
    rw [RecordMap.get?_fill_eq_some_iff h.agree_retained hk, hm.records, hn.records,
      supplies_of_retained hk, supplies_of_retained hk, supplies_of_retained hk,
      supplies_of_retained hk]
  | false =>
    have hother : Supplies ys true k v → m.get? k = some v := by
      intro hv
      obtain ⟨y, hy, hfy, hyv⟩ := (supplies_of_not_retained hk).mp hv
      have hfn : isFinal n = true := hn.final.trans (List.any_eq_true.mpr ⟨y, hy, hfy⟩)
      have hnv : n.get? k = some v := (hn.records k v).mpr (by rwa [hfn])
      cases hd : k.isDropped with
      | true => simp [hcn.dropped hfn k hd] at hnv
      | false =>
        rw [h.scripts_eq hfm hfn (InputKey.isUnited_eq_false hk hd), hnv]
    rw [RecordMap.get?_fill_of_not m n hk, hm.records, hfm]
    rw [hm.records, hfm] at hother
    exact ⟨Or.inl, fun hv => hv.elim id hother⟩

/-- An input that is open on both sides. -/
theorem joined_open (hm : AssembledFrom xs m) (hn : AssembledFrom ys n) (hcm : Clean m)
    (hcn : Clean n) (h : Compatible m n) (hfm : isFinal m = false) (hfn : isFinal n = false) :
    AssembledFrom (xs ++ ys) (m.fill InputKey.isUnited n) := by
  have hopen : isFinal (m.fill InputKey.isUnited n) = false := by
    rw [isFinal_fill (fun _ hk => hk), hfm]
  refine ⟨by rw [hopen, List.any_append, ← hm.final, ← hn.final, hfm, hfn, Bool.or_false],
    fun k v => ?_⟩
  have hmv := hm.records k v
  have hnv := hn.records k v
  rw [hfm] at hmv
  rw [hfn] at hnv
  rw [hopen, supplies_append, ← hmv, ← hnv]
  cases hk : k.isUnited with
  | true => exact RecordMap.get?_fill_eq_some_iff (h.agree_united hfm hfn) hk
  | false =>
    rw [RecordMap.get?_fill_of_not m n hk, hcm.unfinished hfm k hk, hcn.unfinished hfn k hk]
    simp

/-- **One merge of an input** keeps to the description, where the copies are clean. -/
theorem joined (hm : AssembledFrom xs m) (hn : AssembledFrom ys n) (hcm : Clean m) (hcn : Clean n)
    (h : Compatible m n) : AssembledFrom (xs ++ ys) (joined m n) := by
  unfold InputMap.joined
  cases hfm : isFinal m with
  | true => exact hm.joined_final hn hcn h hfm
  | false =>
    cases hfn : isFinal n with
    | true =>
      refine (hn.joined_final hm hcm h.symm hfn).congr fun x => ?_
      rw [List.mem_append, List.mem_append, or_comm]
    | false => exact hm.joined_open hn hcm hcn h hfm hfn

/-- An input that each of the copies can be merged with can be merged with what they are assembled
to. -/
theorem compatible (hm : AssembledFrom xs m) {y : InputMap} (h : ∀ x ∈ xs, Compatible x y) :
    Compatible m y := by
  apply Compatible.of_agree
  · intro k hk v w hv hw
    obtain ⟨x, hx, hxv⟩ := (supplies_of_retained hk _).mp ((hm.records k v).mp hv)
    exact (h x hx).agree_retained k hk v w hxv hw
  · intro hfm hfy k hk
    have hr := InputKey.isRetained_eq_false hk
    apply Option.ext
    intro v
    rw [hm.records, hfm, supplies_of_not_retained hr]
    constructor
    · rintro ⟨x, hx, hfx, hv⟩
      rw [← (h x hx).scripts_eq hfx hfy hk, hv]
    · intro hv
      obtain ⟨x, hx, hfx⟩ := hm.exists_final hfm
      exact ⟨x, hx, hfx, by rw [(h x hx).scripts_eq hfx hfy hk, hv]⟩
  · intro hfm hfy k hk v w hv hw
    obtain ⟨x, hx, -, hxv⟩ := (hm.records k v).mp hv
    exact (h x hx).agree_united (hm.open_of_mem hfm hx) hfy k hk v w hxv hw

end AssembledFrom

end InputMap

/-! ## The whole -/

namespace Psbt

/-- A copy as it is assembled from copies: the records of the whole and of the outputs are united,
and each input is assembled from the copies of it. -/
structure AssembledFrom (ps : List Psbt) (q : Psbt) : Prop where
  tidy : q.Tidy
  transaction : ∀ p ∈ ps, p.transaction = q.transaction
  globals : RecordMap.IsUnion (ps.map Psbt.globals) q.globals
  inputs : ∀ (i : Nat) (m : InputMap), q.inputs[i]? = some m →
    InputMap.AssembledFrom (ps.filterMap fun p => p.inputs[i]?) m
  outputs : ∀ (i : Nat) (m : OutputMap), q.outputs[i]? = some m →
    RecordMap.IsUnion (ps.filterMap fun p => p.outputs[i]?) m

namespace AssembledFrom

variable {ps qs : List Psbt} {p q r : Psbt}

/-- A tidy copy is assembled from itself. -/
theorem singleton (hp : p.Tidy) : AssembledFrom [p] p where
  tidy := hp
  transaction := by simp
  globals := .singleton p.globals
  inputs := fun i m hm => by
    simp only [List.filterMap_cons, hm, List.filterMap_nil]
    exact .singleton m
  outputs := fun i m hm => by
    simp only [List.filterMap_cons, hm, List.filterMap_nil]
    exact .singleton m

/-- **One merge** keeps to the description. -/
theorem merge (hp : AssembledFrom ps p) (hq : AssembledFrom qs q) (h : Psbt.merge p q = .ok r) :
    AssembledFrom (ps ++ qs) r := by
  have htidy := hp.tidy.merge hq.tidy h
  obtain ⟨hc, rfl⟩ := (merge_eq_ok_iff hp.tidy.1 hq.tidy.1).mp h
  refine ⟨htidy, ?_, ?_, ?_, ?_⟩
  · intro x hx
    rcases List.mem_append.mp hx with hx | hx
    · exact hp.transaction x hx
    · exact (hq.transaction x hx).trans hc.transaction.symm
  · rw [List.map_append]
    exact hp.globals.fill hq.globals hc.globals
  · intro i m hm
    obtain ⟨x, y, hx, hy, rfl⟩ := List.getElem?_zipWith_eq_some.mp hm
    rw [List.filterMap_append]
    exact (hp.inputs i x hx).joined (hq.inputs i y hy) (hp.tidy.2 x (List.mem_of_getElem? hx))
      (hq.tidy.2 y (List.mem_of_getElem? hy)) (hc.inputs i x y hx hy)
  · intro i m hm
    obtain ⟨x, y, hx, hy, rfl⟩ := List.getElem?_zipWith_eq_some.mp hm
    rw [List.filterMap_append]
    exact (hp.outputs i x hx).fill (hq.outputs i y hy) (hc.outputs i x y hx hy)

/-- The order of the copies does not matter. -/
theorem congr (hp : AssembledFrom ps p) (h : ∀ x, x ∈ ps ↔ x ∈ qs) : AssembledFrom qs p where
  tidy := hp.tidy
  transaction := fun x hx => hp.transaction x ((h x).mpr hx)
  globals := hp.globals.congr fun m => by simp only [List.mem_map, h]
  inputs := fun i m hm => (hp.inputs i m hm).congr fun x => by simp only [List.mem_filterMap, h]
  outputs := fun i m hm => (hp.outputs i m hm).congr fun x => by simp only [List.mem_filterMap, h]

/-- **Only one copy** is assembled from given copies. -/
theorem unique (hne : ps ≠ []) (hp : AssembledFrom ps p) (hq : AssembledFrom ps q) : p = q := by
  obtain ⟨x, hx⟩ := List.exists_mem_of_ne_nil ps hne
  have htx : p.transaction = q.transaction := (hp.transaction x hx).symm.trans (hq.transaction x hx)
  have hinputs : p.inputs = q.inputs := by
    refine List.ext_getElem (hp.tidy.1.length_inputs_eq hq.tidy.1 htx) fun i hi hi' => ?_
    exact (hp.inputs i _ (List.getElem?_eq_getElem hi)).unique
      (hq.inputs i _ (List.getElem?_eq_getElem hi'))
  have houtputs : p.outputs = q.outputs := by
    refine List.ext_getElem (hp.tidy.1.length_outputs_eq hq.tidy.1 htx) fun i hi hi' => ?_
    exact (hp.outputs i _ (List.getElem?_eq_getElem hi)).unique
      (hq.outputs i _ (List.getElem?_eq_getElem hi'))
  have hglobals := hp.globals.unique hq.globals
  obtain ⟨tx, globals, inputs, outputs⟩ := p
  obtain ⟨tx', globals', inputs', outputs'⟩ := q
  simp only at htx hglobals hinputs houtputs
  rw [htx, hglobals, hinputs, houtputs]

/-- A copy that each of the copies can be merged with can be merged with what they are assembled
to. -/
theorem compatible (hne : ps ≠ []) (hp : AssembledFrom ps p) (h : ∀ x ∈ ps, Compatible x q) :
    Compatible p q := by
  obtain ⟨x, hx⟩ := List.exists_mem_of_ne_nil ps hne
  constructor
  · exact (hp.transaction x hx).symm.trans (h x hx).transaction
  · refine hp.globals.agree fun m hm => ?_
    obtain ⟨y, hy, rfl⟩ := List.mem_map.mp hm
    exact (h y hy).globals
  · intro i m n hm hn
    refine (hp.inputs i m hm).compatible fun y hy => ?_
    obtain ⟨z, hz, hzy⟩ := List.mem_filterMap.mp hy
    exact (h z hz).inputs i y n hzy hn
  · intro i m n hm hn
    refine (hp.outputs i m hm).agree fun y hy => ?_
    obtain ⟨z, hz, hzy⟩ := List.mem_filterMap.mp hy
    exact (h z hz).outputs i y n hzy hn

/-- Copies that can be merged with each other can be merged one after another. -/
theorem exists_foldlM (hne : ps ≠ []) (hp : AssembledFrom ps p) (hqs : ∀ x ∈ qs, x.Tidy)
    (h : (ps ++ qs).Pairwise Compatible) : ∃ r, qs.foldlM Psbt.merge p = .ok r := by
  induction qs generalizing ps p with
  | nil => exact ⟨p, rfl⟩
  | cons q qs ih =>
    have hq : q.Tidy := hqs q List.mem_cons_self
    have hc : Compatible p q := hp.compatible hne fun x hx =>
      (List.pairwise_append.mp h).2.2 x hx q List.mem_cons_self
    have hmerge : Psbt.merge p q = .ok (joined p q) :=
      (merge_eq_ok_iff hp.tidy.1 hq.1).mpr ⟨hc, rfl⟩
    obtain ⟨r, hr⟩ := ih (by simp) (hp.merge (.singleton hq) hmerge)
      (fun x hx => hqs x (List.mem_cons_of_mem _ hx)) (by simpa using h)
    exact ⟨r, by rw [List.foldlM_cons, hmerge]; exact hr⟩

end AssembledFrom

end Psbt

/-! ## Order and grouping -/

/-- A way to bring copies together two at a time. -/
inductive Bracketing where
  /-- A copy. -/
  | copy (p : Psbt)
  /-- What comes of one way, merged with what comes of another. -/
  | merge (left right : Bracketing)

namespace Bracketing

/-- The copies, from left to right. -/
def copies : Bracketing → List Psbt
  | copy p => [p]
  | merge left right => left.copies ++ right.copies

/-- Carries out the merges. -/
def eval : Bracketing → Except Fault Psbt
  | copy p => .ok p
  | merge left right => do
    let p ← left.eval
    let q ← right.eval
    Psbt.merge p q

private theorem copies_ne_nil (t : Bracketing) : t.copies ≠ [] := by
  induction t with
  | copy p => simp [copies]
  | merge left right ihl _ => simp [copies, ihl]

/-- What comes of tidy copies is assembled from them, however they were brought together. -/
private theorem assembledFrom {t : Bracketing} {q : Psbt} (ht : ∀ p ∈ t.copies, p.Tidy)
    (h : t.eval = .ok q) : Psbt.AssembledFrom t.copies q := by
  induction t generalizing q with
  | copy p =>
    obtain rfl := Except.ok.inj h
    exact .singleton (ht p List.mem_cons_self)
  | merge left right ihl ihr =>
    obtain ⟨p, hp, h⟩ := Steps.bind_eq_ok_iff.mp h
    obtain ⟨r, hr, h⟩ := Steps.bind_eq_ok_iff.mp h
    have hleft := ihl (fun x hx => ht x (List.mem_append_left _ hx)) hp
    have hright := ihr (fun x hx => ht x (List.mem_append_right _ hx)) hr
    exact hleft.merge hright h

/-- Bringing copies to another one by one. -/
private def chain (start : Bracketing) (ps : List Psbt) : Bracketing :=
  ps.foldl (fun t p => merge t (copy p)) start

private theorem copies_chain (start : Bracketing) (ps : List Psbt) :
    (chain start ps).copies = start.copies ++ ps := by
  induction ps generalizing start with
  | nil => simp [chain]
  | cons p ps ih =>
    have hstep : chain start (p :: ps) = chain (merge start (copy p)) ps := rfl
    rw [hstep, ih]
    simp [copies]

private theorem eval_chain (start : Bracketing) (ps : List Psbt) :
    (chain start ps).eval = start.eval >>= fun p => ps.foldlM Psbt.merge p := by
  induction ps generalizing start with
  | nil =>
    change start.eval = start.eval >>= pure
    rw [bind_pure]
  | cons p ps ih =>
    have hstep : chain start (p :: ps) = chain (merge start (copy p)) ps := rfl
    simp only [hstep, ih, eval, bind_assoc, List.foldlM_cons]
    rfl

end Bracketing

namespace Psbt

/-- Merging a list from left to right is one way to bring its copies together. -/
private theorem exists_bracketing {ps : List Psbt} (hne : ps ≠ []) :
    ∃ t : Bracketing, t.copies = ps ∧ t.eval = mergeAll ps := by
  cases ps with
  | nil => exact absurd rfl hne
  | cons p ps =>
    exact ⟨.chain (.copy p) ps, by rw [Bracketing.copies_chain]; rfl, Bracketing.eval_chain _ ps⟩

/-- **The order and the grouping of merges do not matter** for clean copies that were read. If every
two of them can be merged, all of them can be, in every order. Two ways to bring them together that
both succeed give the same, be they trees of merges or lists from left to right. Copies that were
made from unsigned transactions are clean.

**Proof sketch.** Each merge keeps to the description of what is assembled, so whatever comes of the
copies is assembled from them, and only one copy is. A copy that is compatible with each of the
copies is compatible with what they are assembled to, so no conflict appears on the way. -/
theorem assembly_order_irrelevant {ps : List Psbt} (hne : ps ≠ [])
    (hps : ∀ p ∈ ps, p.Decoded ∧ p.Clean) :
    (ps.Pairwise (fun p q => ∃ r, merge p q = .ok r) →
        ∀ qs : List Psbt, qs.Perm ps → ∃ r, mergeAll qs = .ok r) ∧
      (∀ s t : Bracketing, s.copies.Perm ps → t.copies.Perm ps →
        ∀ q r, s.eval = .ok q → t.eval = .ok r → q = r) ∧
      (∀ (qs : List Psbt) (t : Bracketing), qs.Perm ps → t.copies.Perm ps →
        ∀ q r, mergeAll qs = .ok q → t.eval = .ok r → q = r) ∧
      ∀ (scheme : SignatureScheme) (p : Psbt), Made scheme p → p.Clean := by
  have htidy : ∀ qs : List Psbt, qs.Perm ps → ∀ p ∈ qs, p.Tidy := fun qs hperm p hp =>
    ⟨(hps p (hperm.mem_iff.mp hp)).1.shaped, (hps p (hperm.mem_iff.mp hp)).2⟩
  have hunique : ∀ s t : Bracketing, s.copies.Perm ps → t.copies.Perm ps →
      ∀ q r, s.eval = .ok q → t.eval = .ok r → q = r := by
    intro s t hs ht q r hq hr
    have hsq := Bracketing.assembledFrom (htidy _ hs) hq
    have htr := Bracketing.assembledFrom (htidy _ ht) hr
    exact hsq.unique s.copies_ne_nil (htr.congr fun x => (ht.trans hs.symm).mem_iff)
  refine ⟨?_, hunique, ?_, fun _ _ hp => hp.tidy.2⟩
  · intro hpairs qs hperm
    have hcompatible : ps.Pairwise Compatible := by
      refine hpairs.imp_of_mem fun hp hq hr => ?_
      obtain ⟨r, hr⟩ := hr
      exact ((merge_eq_ok_iff (hps _ hp).1.shaped (hps _ hq).1.shaped).mp hr).1
    have hqs : qs.Pairwise Compatible :=
      (hperm.pairwise_iff fun h => h.symm).mpr hcompatible
    cases qs with
    | nil => exact absurd hperm.symm.eq_nil hne
    | cons q qs =>
      have hq := htidy _ hperm
      exact (AssembledFrom.singleton (hq q List.mem_cons_self)).exists_foldlM (by simp)
        (fun x hx => hq x (List.mem_cons_of_mem _ hx)) hqs
  · intro qs t hperm ht q r hq hr
    have hne' : qs ≠ [] := fun h => hne (by rw [h] at hperm; exact hperm.symm.eq_nil)
    obtain ⟨s, hs, hse⟩ := exists_bracketing hne'
    exact hunique s t (by rwa [hs]) ht q r (hse.trans hq) hr

/-! ## Three copies, two of them open -/

/-- The copy whose input is open and asks for a sighash type. -/
def openWithSighash : Psbt :=
  sampleCopy ((∅ : InputMap).insert .sighashType 1)

/-- The copy whose input is open and knows a script. -/
def openWithScript : Psbt :=
  sampleCopy ((∅ : InputMap).insert .redeemScript ⟨[0x51]⟩)

private theorem clean_finalAlone : finalAlone.Clean := by
  intro x hx
  obtain rfl := List.mem_singleton.mp hx
  refine ⟨fun _ k hk => RecordMap.get?_insert_of_ne ∅ ?_ _, fun h => absurd h (by decide)⟩
  rintro rfl
  simp [InputKey.isDropped, InputKey.isUnited] at hk

/-- An input with a single record that is not a final script is clean. -/
private theorem clean_sampleCopy {k : InputKey} (hk : k.isUnited = true) (v : k.Value) :
    (sampleCopy ((∅ : InputMap).insert k v)).Clean := by
  intro x hx
  obtain rfl := List.mem_singleton.mp hx
  exact .of_no_scripts fun _ hk' =>
    RecordMap.get?_insert_of_ne ∅ (InputKey.ne_of_isUnited hk hk').symm v

/-- The three copies can be merged in reverse order, with the same result as in another grouping. -/
theorem assembly_order_irrelevant_sample :
    (∃ r, mergeAll [openWithScript, finalAlone, openWithSighash] = .ok r) ∧
      ∀ q r, mergeAll [openWithScript, finalAlone, openWithSighash] = .ok q →
        (Bracketing.merge (.copy openWithSighash)
          (.merge (.copy finalAlone) (.copy openWithScript))).eval = .ok r → q = r := by
  have hps : ∀ p ∈ [openWithSighash, finalAlone, openWithScript], p.Decoded ∧ p.Clean := by
    simp only [List.mem_cons, List.not_mem_nil, or_false]
    rintro p (rfl | rfl | rfl)
    · exact ⟨@Decoded.of_ofBytes? _ openWithSighash.bytes rfl, clean_sampleCopy rfl _⟩
    · exact ⟨decoded_finalAlone, clean_finalAlone⟩
    · exact ⟨@Decoded.of_ofBytes? _ openWithScript.bytes rfl, clean_sampleCopy rfl _⟩
  have h := assembly_order_irrelevant (List.cons_ne_nil _ _) hps
  have hperm : [openWithScript, finalAlone, openWithSighash].Perm
      [openWithSighash, finalAlone, openWithScript] :=
    List.reverse_perm [openWithSighash, finalAlone, openWithScript]
  refine ⟨h.1 ?_ _ hperm, h.2.2.1 _ _ hperm (.refl _)⟩
  simp only [List.pairwise_cons, List.mem_cons, List.not_mem_nil, or_false]
  refine ⟨?_, ?_, by simp⟩
  · rintro q (rfl | rfl) <;> exact ⟨_, rfl⟩
  · rintro q rfl
    exact ⟨_, rfl⟩

end Psbt

end JointSpend
