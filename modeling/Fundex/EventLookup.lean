import Fundex.Ethereum

namespace Fundex

/-! ## Decimal numbers -/

/-- Reads decimal digits back as the number they write. -/
def ofDecimal (l : List Char) : Nat := l.foldl (fun n c => 10 * n + (c.toNat - '0'.toNat)) 0

theorem toDigitsCore_eq_append (b f n : Nat) (ds : List Char) :
    Nat.toDigitsCore b f n ds = Nat.toDigitsCore b f n [] ++ ds := by
  induction f generalizing n ds with
  | zero => rfl
  | succ f ih =>
    simp only [Nat.toDigitsCore]
    split
    · rfl
    · rw [ih _ (_ :: ds), ih _ [_]]
      simp

theorem digitChar_decimal {d : Nat} (h : d < 10) :
    (Nat.digitChar d).isDigit ∧ (Nat.digitChar d).toNat - '0'.toNat = d := by
  interval_cases d <;> decide

theorem isDigit_of_mem_decimal {n : Nat} {c : Char} (h : c ∈ decimal n) : c.isDigit := by
  suffices ∀ f n (ds : List Char), (∀ c ∈ ds, c.isDigit) → ∀ c ∈ Nat.toDigitsCore 10 f n ds,
      c.isDigit from this _ _ [] (by simp) c h
  intro f
  induction f with
  | zero => exact fun _ _ hds => hds
  | succ f ih =>
    intro n ds hds
    have hd := (digitChar_decimal (Nat.mod_lt n (by decide : 10 > 0))).1
    simp only [Nat.toDigitsCore]
    split
    · simpa [hd] using hds
    · exact ih _ _ (by simpa [hd] using hds)

theorem decimal_ne_nil (n : Nat) : decimal n ≠ [] := by
  simp only [decimal, Nat.toDigits, Nat.toDigitsCore]
  split
  · simp
  · rw [toDigitsCore_eq_append]
    simp

theorem ofDecimal_decimal (n : Nat) : ofDecimal (decimal n) = n := by
  suffices ∀ f n, n < f → ofDecimal (Nat.toDigitsCore 10 f n []) = n from this _ _ (by omega)
  intro f
  induction f with
  | zero => intro n h; omega
  | succ f ih =>
    intro n hn
    have hd := (digitChar_decimal (Nat.mod_lt n (by decide : 10 > 0))).2
    simp only [Nat.toDigitsCore]
    split
    · simp only [ofDecimal, List.foldl_cons, List.foldl_nil, hd]
      omega
    · rw [toDigitsCore_eq_append]
      simp only [ofDecimal, List.foldl_append, List.foldl_cons, List.foldl_nil, hd] at ih ⊢
      rw [ih _ (by omega)]
      omega

theorem digits_append_inj {l l' u u' : List Char} (hl : ∀ c ∈ l, c.isDigit)
    (hl' : ∀ c ∈ l', c.isDigit) (hu : ∀ c ∈ u.head?, c.isDigit = false)
    (hu' : ∀ c ∈ u'.head?, c.isDigit = false) (h : l ++ u = l' ++ u') : l = l' ∧ u = u' := by
  induction l generalizing l' with
  | nil =>
    cases l' with
    | nil => exact ⟨rfl, h⟩
    | cons c l' => subst h; simp_all
  | cons c l ih =>
    cases l' with
    | nil => subst h; simp_all
    | cons c' l' =>
      simp only [List.cons_append, List.cons.injEq] at h
      obtain ⟨rfl, h⟩ := h
      have := ih (fun c hc => hl c (by simp [hc])) (fun c hc => hl' c (by simp [hc])) h
      exact ⟨by rw [this.1], this.2⟩

theorem decimal_append_inj {n n' : Nat} {u u' : List Char}
    (hu : ∀ c ∈ u.head?, c.isDigit = false) (hu' : ∀ c ∈ u'.head?, c.isDigit = false)
    (h : decimal n ++ u = decimal n' ++ u') : n = n' ∧ u = u' := by
  obtain ⟨hd, rfl⟩ := digits_append_inj (fun _ => isDigit_of_mem_decimal)
    (fun _ => isDigit_of_mem_decimal) hu hu' h
  exact ⟨by rw [← ofDecimal_decimal n, hd, ofDecimal_decimal], rfl⟩

theorem decimal_eq_cons (n : Nat) : ∃ c rest, decimal n = c :: rest ∧ c.isDigit := by
  obtain ⟨c, rest, h⟩ := List.exists_cons_of_ne_nil (decimal_ne_nil n)
  exact ⟨c, rest, h, isDigit_of_mem_decimal (by rw [h]; exact List.mem_cons_self _ _)⟩

/-! ## Comma-separated lists -/

/-- A text that may follow one item of a parenthesised list: empty, or a `,` or `)` next. -/
def Follows (s : List Char) : Prop := ∀ c ∈ s.head?, c = ',' ∨ c = ')'

@[simp] theorem follows_nil : Follows [] := by simp [Follows]

@[simp] theorem follows_cons {c : Char} {s : List Char} : Follows (c :: s) ↔ c = ',' ∨ c = ')' := by
  simp [Follows]

section CommaList

variable {α β : Type} {enc : α → List Char} {key : α → β}

variable (enc key) in
/-- `enc a`, followed by a text that may follow it, gives back `key a` and that text. -/
def PrefixUnique (a : α) : Prop :=
  ∀ a' s s', enc a ++ s = enc a' ++ s' → Follows s → Follows s' → key a = key a' ∧ s = s'

theorem intercalate_comma_cons (a : α) (xs : List α) :
    [','].intercalate ((a :: xs).map enc) = enc a ++ xs.flatMap fun b => ',' :: enc b := by
  induction xs generalizing a with
  | nil => simp [List.intercalate]
  | cons b xs ih =>
    have := ih b
    simp only [List.intercalate, List.map_cons, List.intersperse_cons_cons, List.flatten_cons]
      at this ⊢
    simp [this]

theorem follows_commaTail (xs : List α) (r : List Char) :
    Follows (xs.flatMap (fun a => ',' :: enc a) ++ ')' :: r) := by
  cases xs <;> simp

theorem commaTail_inj {xs xs' : List α} (hxs : ∀ a ∈ xs, PrefixUnique enc key a)
    {r r' : List Char}
    (h : xs.flatMap (fun a => ',' :: enc a) ++ ')' :: r =
      xs'.flatMap (fun a => ',' :: enc a) ++ ')' :: r') :
    xs.map key = xs'.map key ∧ r = r' := by
  induction xs generalizing xs' with
  | nil =>
    cases xs' with
    | nil => simpa using h
    | cons a' xs' => simp at h
  | cons a xs ih =>
    cases xs' with
    | nil => simp at h
    | cons a' xs' =>
      simp only [List.flatMap_cons, List.cons_append, List.append_assoc, List.cons.injEq,
        true_and] at h
      obtain ⟨ha, h⟩ := hxs a (List.mem_cons_self _ _) a' _ _ h (follows_commaTail _ _)
        (follows_commaTail _ _)
      obtain ⟨hxs, rfl⟩ := ih (fun b hb => hxs b (List.mem_cons_of_mem _ hb)) h
      simp [ha, hxs]

theorem commaList_cons_ne (hne : ∀ a, ∃ c s, enc a = c :: s ∧ c ≠ ')') (a : α) (xs : List α)
    (r r' : List Char) : [','].intercalate ((a :: xs).map enc) ++ r ≠ ')' :: r' := by
  obtain ⟨c, s, hc, hne⟩ := hne a
  rw [intercalate_comma_cons, hc]
  simp [hne]

theorem commaList_inj (hne : ∀ a, ∃ c s, enc a = c :: s ∧ c ≠ ')') {xs xs' : List α}
    (hxs : ∀ a ∈ xs, PrefixUnique enc key a) {r r' : List Char}
    (h : [','].intercalate (xs.map enc) ++ ')' :: r = [','].intercalate (xs'.map enc) ++ ')' :: r') :
    xs.map key = xs'.map key ∧ r = r' := by
  cases xs with
  | nil =>
    cases xs' with
    | nil => simpa using h
    | cons a' xs' => exact absurd h.symm (commaList_cons_ne hne a' xs' _ _)
  | cons a xs =>
    cases xs' with
    | nil => exact absurd h (commaList_cons_ne hne a xs _ _)
    | cons a' xs' =>
      simp only [intercalate_comma_cons, List.append_assoc] at h
      obtain ⟨ha, h⟩ := hxs a (List.mem_cons_self _ _) a' _ _ h (follows_commaTail _ _)
        (follows_commaTail _ _)
      obtain ⟨hxs, rfl⟩ := commaTail_inj (fun b hb => hxs b (List.mem_cons_of_mem _ hb)) h
      simp [ha, hxs]

end CommaList

/-! ## Array layers

A signature is read from the right: `T[]` and `T[n]` put a layer around `T`. A type is its
base, which is not an array, and the layers around it, innermost first. -/

/-- A text that may follow a type's base: what may follow the type, or an array layer. -/
def LayerFollows (s : List Char) : Prop := ∀ c ∈ s.head?, c = ',' ∨ c = ')' ∨ c = '['

theorem Follows.layerFollows {s : List Char} (h : Follows s) : LayerFollows s :=
  fun c hc => (h c hc).elim .inl (.inr ∘ .inl)

theorem LayerFollows.not_digit {s : List Char} (h : LayerFollows s) :
    ∀ c ∈ s.head?, c.isDigit = false := by
  intro c hc
  rcases h c hc with rfl | rfl | rfl <;> rfl

namespace ParamType

def base : ParamType → ParamType
  | .array inner => inner.base
  | .fixedArray inner _ => inner.base
  | t => t

/-- The array layers around a type's base, innermost first: `none` is `[]`, `some n` is
`[n]`. -/
def layers : ParamType → List (Option Nat)
  | .array inner => inner.layers ++ [none]
  | .fixedArray inner size => inner.layers ++ [some size]
  | _ => []

def wrap (t : ParamType) : Option Nat → ParamType
  | none => .array t
  | some size => .fixedArray t size

theorem layers_foldl_base : ∀ t : ParamType, t.layers.foldl wrap t.base = t
  | .array inner => by simp [layers, base, wrap, layers_foldl_base inner]
  | .fixedArray inner size => by simp [layers, base, wrap, layers_foldl_base inner]
  | .address | .bytes | .int _ | .uint _ | .bool | .string | .fixedBytes _ | .tuple _ => rfl

theorem layers_base : ∀ t : ParamType, t.base.layers = []
  | .array inner | .fixedArray inner _ => layers_base inner
  | .address | .bytes | .int _ | .uint _ | .bool | .string | .fixedBytes _ | .tuple _ => rfl

theorem sizeOf_base_le : ∀ t : ParamType, sizeOf t.base ≤ sizeOf t
  | .array inner => by have := sizeOf_base_le inner; simp only [base, array.sizeOf_spec]; omega
  | .fixedArray inner size => by
    have := sizeOf_base_le inner; simp only [base, fixedArray.sizeOf_spec]; omega
  | .address | .bytes | .int _ | .uint _ | .bool | .string | .fixedBytes _ | .tuple _ => le_rfl

end ParamType

def layerSignature : Option Nat → List Char
  | none => "[]".toList
  | some size => '[' :: decimal size ++ [']']

theorem signature_eq_base_layers : ∀ t : ParamType,
    eventParamTypeSignature t =
      eventParamTypeSignature t.base ++ t.layers.flatMap layerSignature
  | .array inner => by
    simp [eventParamTypeSignature, ParamType.base, ParamType.layers, layerSignature,
      signature_eq_base_layers inner]
  | .fixedArray inner size => by
    simp [eventParamTypeSignature, ParamType.base, ParamType.layers, layerSignature,
      signature_eq_base_layers inner]
  | .address | .bytes | .int _ | .uint _ | .bool | .string | .fixedBytes _ | .tuple _ => by
    simp [ParamType.base, ParamType.layers]

theorem layerSignature_none_ne (n : Nat) (u u' : List Char) :
    layerSignature none ++ u ≠ layerSignature (some n) ++ u' := by
  obtain ⟨c, rest, hc, hd⟩ := decimal_eq_cons n
  intro h
  simp [layerSignature, hc] at h
  simp [← h.1] at hd

theorem layerSignature_append_inj {l l' : Option Nat} {u u' : List Char}
    (h : layerSignature l ++ u = layerSignature l' ++ u') : l = l' ∧ u = u' := by
  cases l with
  | none =>
    cases l' with
    | none => simpa [layerSignature] using h
    | some n' => exact absurd h (layerSignature_none_ne n' _ _)
  | some n =>
    cases l' with
    | none => exact absurd h.symm (layerSignature_none_ne n _ _)
    | some n' =>
      simp only [layerSignature, List.cons_append, List.append_assoc, List.singleton_append,
        List.cons.injEq, true_and] at h
      obtain ⟨rfl, h⟩ := decimal_append_inj (by simp) (by simp) h
      simpa using h

theorem layerFollows_layers (ls : List (Option Nat)) {s : List Char} (hs : Follows s) :
    LayerFollows (ls.flatMap layerSignature ++ s) := by
  cases ls with
  | nil => exact hs.layerFollows
  | cons l ls => cases l <;> simp [LayerFollows, layerSignature]

theorem layers_append_inj {ls ls' : List (Option Nat)} {s s' : List Char} (hs : Follows s)
    (hs' : Follows s') (h : ls.flatMap layerSignature ++ s = ls'.flatMap layerSignature ++ s') :
    ls = ls' ∧ s = s' := by
  induction ls generalizing ls' with
  | nil =>
    cases ls' with
    | nil => exact ⟨rfl, h⟩
    | cons l' ls' => subst h; cases l' <;> simp [layerSignature] at hs
  | cons l ls ih =>
    cases ls' with
    | nil => subst h; cases l <;> simp [layerSignature] at hs'
    | cons l' ls' =>
      simp only [List.flatMap_cons, List.append_assoc] at h
      obtain ⟨rfl, hrest⟩ := layerSignature_append_inj h
      obtain ⟨rfl, rfl⟩ := ih hrest
      exact ⟨rfl, rfl⟩

/-! ## Type signatures -/

theorem not_layerFollows_decimal (n : Nat) (r : List Char) : ¬LayerFollows (decimal n ++ r) := by
  obtain ⟨c, rest, hc, hd⟩ := decimal_eq_cons n
  intro h
  have := h.not_digit c (by simp [hc])
  simp [hd] at this

theorem signature_eq_cons : ∀ t : ParamType,
    ∃ c s, eventParamTypeSignature t = c :: s ∧ c ≠ ')'
  | .array inner | .fixedArray inner _ => by
    obtain ⟨c, s, hc, hne⟩ := signature_eq_cons inner
    exact ⟨c, _, by simp only [eventParamTypeSignature, hc, List.cons_append]; rfl, hne⟩
  | .address | .bytes | .int _ | .uint _ | .bool | .string | .fixedBytes _ | .tuple _ =>
    ⟨_, _, rfl, by decide⟩

theorem base_append_inj {b b' : ParamType} (hb : b.layers = []) (hb' : b'.layers = [])
    (htuple : ∀ cs, b = .tuple cs → ∀ c ∈ cs, PrefixUnique eventParamTypeSignature id c)
    {r r' : List Char} (hr : LayerFollows r) (hr' : LayerFollows r')
    (h : eventParamTypeSignature b ++ r = eventParamTypeSignature b' ++ r') :
    b = b' ∧ r = r' := by
  cases b <;> cases b' <;> simp [ParamType.layers] at hb hb' <;>
    simp [eventParamTypeSignature, componentSignatures_eq] at h ⊢ <;> try exact h
  case int.int | uint.uint | fixedBytes.fixedBytes =>
    exact decimal_append_inj hr.not_digit hr'.not_digit h
  case bytes.fixedBytes n => exact not_layerFollows_decimal n r' (h ▸ hr)
  case fixedBytes.bytes n => exact not_layerFollows_decimal n r (h ▸ hr')
  case tuple.tuple cs cs' => simpa using commaList_inj signature_eq_cons (htuple cs rfl) h

theorem signature_prefixUnique (t : ParamType) : PrefixUnique eventParamTypeSignature id t := by
  intro t' s s' h hs hs'
  rw [signature_eq_base_layers t, signature_eq_base_layers t', List.append_assoc,
    List.append_assoc] at h
  obtain ⟨hbase, hrest⟩ := base_append_inj (ParamType.layers_base t) (ParamType.layers_base t')
    (fun cs hcs c hc => signature_prefixUnique c) (layerFollows_layers _ hs)
    (layerFollows_layers _ hs') h
  obtain ⟨hlayers, rfl⟩ := layers_append_inj hs hs' hrest
  refine ⟨?_, rfl⟩
  show t = t'
  rw [← ParamType.layers_foldl_base t, hbase, hlayers, ParamType.layers_foldl_base]
termination_by sizeOf t
decreasing_by
  have hbase := ParamType.sizeOf_base_le t
  rw [hcs, ParamType.tuple.sizeOf_spec] at hbase
  have := List.sizeOf_lt_of_mem hc
  omega

theorem eventParamTypeSignature_inj {t t' : ParamType}
    (h : eventParamTypeSignature t = eventParamTypeSignature t') : t = t' :=
  (signature_prefixUnique t t' [] [] (by simpa using h) follows_nil follows_nil).1

/-! ## Event signatures -/

theorem signature_ne_indexed (t : ParamType) (s x : List Char) :
    eventParamTypeSignature t ++ s ≠ "indexed ".toList ++ x := by
  rw [signature_eq_base_layers, List.append_assoc]
  have hb := ParamType.layers_base t
  generalize t.base = b at hb ⊢
  cases b <;> simp [ParamType.layers, eventParamTypeSignature] at hb ⊢

theorem indexedInputSignature_eq_cons (input : EventParam) :
    ∃ c s, indexedInputSignature input = c :: s ∧ c ≠ ')' := by
  cases h : input.indexed with
  | true => exact ⟨'i', _, by simp [indexedInputSignature, h]; rfl, by decide⟩
  | false => simpa [indexedInputSignature, h] using signature_eq_cons input.kind

theorem indexedInputSignature_prefixUnique (input : EventParam) :
    PrefixUnique indexedInputSignature (fun input => (input.indexed, input.kind)) input := by
  intro input' s s' h hs hs'
  cases hi : input.indexed <;> cases hi' : input'.indexed <;>
    simp only [indexedInputSignature, hi, hi', Bool.false_eq_true, ite_true, ite_false,
      List.nil_append, List.append_assoc, List.append_cancel_left_eq] at h
  case false.false | true.true =>
    obtain ⟨hk, rfl⟩ := signature_prefixUnique _ _ _ _ h hs hs'
    exact ⟨by simp_all, rfl⟩
  case false.true => exact absurd h (signature_ne_indexed _ _ _)
  case true.false => exact absurd h.symm (signature_ne_indexed _ _ _)

theorem name_append_inj {a b x y : List Char} (ha : '(' ∉ a) (hb : '(' ∉ b)
    (h : a ++ '(' :: x = b ++ '(' :: y) : a = b ∧ x = y := by
  induction a generalizing b with
  | nil =>
    cases b with
    | nil => simpa using h
    | cons c b =>
      simp only [List.nil_append, List.cons_append, List.cons.injEq] at h
      exact absurd (h.1 ▸ List.mem_cons_self _ _) hb
  | cons c a ih =>
    cases b with
    | nil =>
      simp only [List.nil_append, List.cons_append, List.cons.injEq] at h
      exact absurd (h.1 ▸ List.mem_cons_self _ _) ha
    | cons c' b =>
      simp only [List.cons_append, List.cons.injEq] at h
      obtain ⟨rfl, h⟩ := h
      obtain ⟨rfl, rfl⟩ := ih (fun h' => ha (List.mem_cons_of_mem _ h'))
        (fun h' => hb (List.mem_cons_of_mem _ h')) h
      exact ⟨rfl, rfl⟩

theorem eventSignature_eq (e : Event) : eventSignature e =
    e.name.toList ++ '(' :: ([','].intercalate (e.inputs.map indexedInputSignature) ++ [')']) := by
  simp [eventSignature]

theorem ambiguousEventSignature_eq (e : Event) : ambiguousEventSignature e =
    e.name.toList ++ '(' ::
      ([','].intercalate (e.inputs.map fun input => eventParamTypeSignature input.kind) ++ [')']) := by
  simp [ambiguousEventSignature]

theorem eventSignature_inj {e e' : Event} (hn : '(' ∉ e.name.toList)
    (hn' : '(' ∉ e'.name.toList) (h : eventSignature e = eventSignature e') :
    e.name = e'.name ∧ e.inputs.map (fun input => (input.indexed, input.kind)) =
      e'.inputs.map (fun input => (input.indexed, input.kind)) := by
  rw [eventSignature_eq, eventSignature_eq] at h
  obtain ⟨hname, h⟩ := name_append_inj hn hn' h
  exact ⟨String.ext hname, (commaList_inj indexedInputSignature_eq_cons
    (fun input _ => indexedInputSignature_prefixUnique input) h).1⟩

/-! ## Looking an event up -/

theorem take_findIdx_paren {name rest : List Char} (hn : '(' ∉ name) :
    (name ++ '(' :: rest).take (((name ++ '(' :: rest).findIdx? (· = '(')).getD 0) = name := by
  have hnone : name.findIdx? (· = '(') = none :=
    List.findIdx?_eq_none_iff.2 fun c hc => by simpa using ne_of_mem_of_not_mem hc hn
  rw [List.findIdx?_append, hnone, List.findIdx?_cons]
  simp

theorem contractEventWithSignature_eventSignature {c : Contract} {e : Event} (he : e ∈ c.events) :
    ∃ e' ∈ c.events, contractEventWithSignature c (eventSignature e) = some e' ∧
      eventSignature e' = eventSignature e := by
  cases hf : c.events.find? fun event => eventSignature event = eventSignature e with
  | none => exact absurd (List.find?_eq_none.1 hf e he) (by simp)
  | some e' =>
    refine ⟨e', List.mem_of_find?_eq_some hf, ?_, by simpa using List.find?_some hf⟩
    simp only [contractEventWithSignature, hf]
    rfl

theorem contractEventWithSignature_ambiguous {c : Contract}
    (hnames : ∀ ev ∈ c.events, '(' ∉ ev.name.toList) {e : Event} (he : e ∈ c.events)
    (hfilter : c.events.filter (fun ev => ev.name = e.name) = [e]) :
    contractEventWithSignature c (ambiguousEventSignature e) = some e := by
  cases hf : c.events.find? fun event => eventSignature event = ambiguousEventSignature e with
  | some e'' =>
    have he'' := List.mem_of_find?_eq_some hf
    have hsig : eventSignature e'' = ambiguousEventSignature e := by
      simpa using List.find?_some hf
    rw [eventSignature_eq, ambiguousEventSignature_eq] at hsig
    have hname := (name_append_inj (hnames e'' he'') (hnames e he) hsig).1
    have hmem : e'' ∈ c.events.filter (fun ev => ev.name = e.name) :=
      List.mem_filter.2 ⟨he'', by simpa using String.ext hname⟩
    rw [hfilter, List.mem_singleton] at hmem
    simp only [contractEventWithSignature, hf, hmem]
    rfl
  | none =>
    have hfilter' : c.events.filter (fun ev => ev.name.toList = e.name.toList) = [e] :=
      (List.filter_congr fun ev _ => decide_eq_decide.2 String.toList_inj).trans hfilter
    simp only [contractEventWithSignature, hf]
    simp only [Option.orElse, ambiguousEventSignature_eq, take_findIdx_paren (hnames e he),
      hfilter', if_true]

theorem contractEventWithSignature_recovers (c : Contract)
    (hnames : ∀ ev ∈ c.events, '(' ∉ ev.name.toList) (e : Event) (he : e ∈ c.events) :
    (∃ e', contractEventWithSignature c (eventSignature e) = some e' ∧ e'.name = e.name ∧
        e'.inputs.map (fun input => (input.indexed, input.kind)) =
          e.inputs.map (fun input => (input.indexed, input.kind))) ∧
      (c.events.filter (fun ev => ev.name = e.name) = [e] →
        contractEventWithSignature c (ambiguousEventSignature e) = some e) := by
  refine ⟨?_, contractEventWithSignature_ambiguous hnames he⟩
  obtain ⟨e', he', hlookup, hsig⟩ := contractEventWithSignature_eventSignature he
  exact ⟨e', hlookup, eventSignature_inj (hnames e' he') (hnames e he) hsig⟩

theorem contractEventWithSignature_recovers_transfer :
    contractEventWithSignature ⟨[⟨"Transfer", [⟨"to", .address, true⟩], false⟩]⟩
        (ambiguousEventSignature ⟨"Transfer", [⟨"to", .address, true⟩], false⟩) =
      some ⟨"Transfer", [⟨"to", .address, true⟩], false⟩ :=
  (contractEventWithSignature_recovers _ (by decide) _ (List.mem_singleton_self _)).2 (by simp)

/-! ## Looking a function up

`contract_function_with_signature` writes the input kinds with `ethabi`'s `Display`, whose source
is not in the repository: the results hold for every `display` that reads back as
`event_param_type_signature` does. -/

section FunctionLookup

variable {display : ParamType → List Char}

theorem functionSignature_eq (display : ParamType → List Char) (f : AbiFunction) :
    functionSignature display f = f.name.toList ++
      '(' :: ([','].intercalate (f.inputs.map fun input => display input.kind) ++ [')']) := by
  simp [functionSignature, List.intercalate]

theorem contractFunctionWithSignature_sound {functions : List AbiFunction} {target : List Char}
    {g : AbiFunction} (h : contractFunctionWithSignature display functions target = some g) :
    g ∈ functions ∧ g.mayChangeState ∧ functionSignature display g = target := by
  have hmem := List.mem_filter.1 (List.mem_of_find?_eq_some h)
  exact ⟨hmem.1, hmem.2, by simpa [eq_comm] using List.find?_some h⟩

theorem contractFunctionWithSignature_recovers (display : ParamType → List Char)
    (functions : List AbiFunction) (hd : ∀ t, PrefixUnique display id t)
    (hne : ∀ t, ∃ c s, display t = c :: s ∧ c ≠ ')')
    (hnames : ∀ g ∈ functions, '(' ∉ g.name.toList) :
    (∀ target g, contractFunctionWithSignature display functions target = some g →
        g ∈ functions ∧ g.mayChangeState ∧ functionSignature display g = target) ∧
      ∀ f ∈ functions, f.mayChangeState →
        ∃ g, contractFunctionWithSignature display functions (functionSignature display f) =
            some g ∧ g.name = f.name ∧ g.inputs.map Param.kind = f.inputs.map Param.kind := by
  refine ⟨fun _ _ => contractFunctionWithSignature_sound, fun f hf hfm => ?_⟩
  cases hfind : contractFunctionWithSignature display functions (functionSignature display f) with
  | none =>
    exact absurd (List.find?_eq_none.1 hfind f (List.mem_filter.2 ⟨hf, hfm⟩)) (by simp)
  | some g =>
    obtain ⟨hg, -, hsig⟩ := contractFunctionWithSignature_sound hfind
    rw [functionSignature_eq, functionSignature_eq] at hsig
    obtain ⟨hname, hargs⟩ := name_append_inj (hnames g hg) (hnames f hf) hsig
    refine ⟨g, rfl, String.ext hname, (commaList_inj (fun input => hne input.kind)
      (fun input _ input' s s' => hd input.kind input'.kind s s') hargs).1⟩

end FunctionLookup

theorem contractFunctionWithSignature_transfer :
    ∃ g, contractFunctionWithSignature eventParamTypeSignature
        [⟨"transfer", [⟨"to", .address⟩, ⟨"value", .uint 256⟩], .nonPayable⟩]
        (functionSignature eventParamTypeSignature
          ⟨"transfer", [⟨"to", .address⟩, ⟨"value", .uint 256⟩], .nonPayable⟩) = some g ∧
      g.name = "transfer" ∧ g.inputs.map Param.kind = [.address, .uint 256] :=
  (contractFunctionWithSignature_recovers eventParamTypeSignature _ signature_prefixUnique
    signature_eq_cons (by decide)).2 _ (List.mem_singleton_self _) rfl

end Fundex
