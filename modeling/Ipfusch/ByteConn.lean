import Ipfusch.Bytes

/-!
# Programs on a byte connection

A `Conn` is one end of a reliable ordered byte stream in each direction : the bytes
that will arrive, what a read meets after them (`StreamEnd`), and the bytes written so
far. How the arriving bytes are cut into chunks does not show, since `readExact` waits
for all it asks for.

`M ε α` is a program on a connection. It returns, fails with a `Failure` (an error
value under the contexts added to it on the way up), or waits forever for bytes that
do not arrive. What it wrote before that stays written.

`Parses x p` says that the program `x` is the parser `p` run on the input : it takes
from the input exactly what `p` takes, fails or waits where `p` rejects, and writes
nothing. `Alike` and `Translates` compare two programs apart from the contexts of their
errors. What a `Causal` program has done stays as it is when more bytes arrive.
-/

namespace ByteConn

/-- The kind of an I/O error that programs tell apart. -/
inductive IoKind
  | unexpectedEof
  | other
  deriving DecidableEq, Repr

/-- An error under the contexts added to it, outermost first. -/
inductive Failure (ε : Type)
  | io (kind : IoKind)
  | error (e : ε)
  | context (text : String) (source : Failure ε)
  deriving DecidableEq, Repr

/-- How a program can end without a value. -/
inductive Stop (ε : Type)
  | failed (e : Failure ε)
  /-- Waiting for bytes that do not arrive. -/
  | blocked
  deriving DecidableEq, Repr

/-- What a read meets after the bytes that arrive. -/
inductive StreamEnd
  /-- The peer closed its side. -/
  | eof
  /-- The connection was lost. -/
  | broken
  /-- Nothing more arrives, and nothing says so. -/
  | silent
  deriving DecidableEq, Repr

/-- One end of a connection. -/
structure Conn where
  input : List UInt8
  tail : StreamEnd
  output : List UInt8 := []
  /-- The write side was closed. -/
  finished : Bool := false
  deriving DecidableEq, Repr

/-- A program on a connection. -/
structure M (ε α : Type) where
  /-- Run the program. -/
  run : Conn → Except (Stop ε) α × Conn

variable {ε α β : Type}

instance : Monad (M ε) where
  pure a := ⟨fun c => (.ok a, c)⟩
  bind x f := ⟨fun c =>
    match x.run c with
    | (.ok a, c') => (f a).run c'
    | (.error e, c') => (.error e, c')⟩

@[simp] theorem pure_run (a : α) (c : Conn) : (pure a : M ε α).run c = (.ok a, c) :=
  rfl

theorem bind_run (x : M ε α) (f : α → M ε β) (c : Conn) : (x >>= f).run c =
    match x.run c with
    | (.ok a, c') => (f a).run c'
    | (.error e, c') => (.error e, c') :=
  rfl

theorem bind_ok {x : M ε α} {f : α → M ε β} {c c' : Conn} {a : α} (h : x.run c = (.ok a, c')) :
    (x >>= f).run c = (f a).run c' := by
  rw [bind_run, h]

theorem bind_error {x : M ε α} {f : α → M ε β} {c c' : Conn} {e : Stop ε}
    (h : x.run c = (.error e, c')) : (x >>= f).run c = (.error e, c') := by
  rw [bind_run, h]

/-! ## Primitives -/

/-- What a read that runs out of bytes ends with. -/
def StreamEnd.stop : StreamEnd → Stop ε
  | .eof => .failed (.io .unexpectedEof)
  | .broken => .failed (.io .other)
  | .silent => .blocked

/-- `read_exact` into a buffer of `n` bytes. -/
def readExact (n : ℕ) : M ε (List UInt8) where
  run c :=
    match Bytes.takeExact n c.input with
    | some (a, rest) => (.ok a, { c with input := rest })
    | none => (.error c.tail.stop, { c with input := [] })

/-- `write_all` -/
def writeAll (bs : List UInt8) : M ε Unit where
  run c := (.ok (), { c with output := c.output ++ bs })

/-- Close the write side. -/
def finish : M ε Unit where
  run c := (.ok (), { c with finished := true })

/-- Return an error. -/
def fail (e : Failure ε) : M ε α where
  run c := (.error (.failed e), c)

/-- The context of an error. A program that waits forever adds none. -/
def Stop.context (text : String) : Stop ε → Stop ε
  | .failed e => .failed (.context text e)
  | .blocked => .blocked

/-- `.context(text)` -/
def context (text : String) (x : M ε α) : M ε α where
  run c :=
    match x.run c with
    | (.ok a, c') => (.ok a, c')
    | (.error e, c') => (.error (e.context text), c')

/-- A result that is already there. -/
def liftExcept : Except ε α → M ε α
  | .ok a => pure a
  | .error e => fail (.error e)

theorem readExact_run (n : ℕ) (c : Conn) : (readExact n : M ε _).run c =
    match Bytes.takeExact n c.input with
    | some (a, rest) => (.ok a, { c with input := rest })
    | none => (.error c.tail.stop, { c with input := [] }) :=
  rfl

theorem context_run (text : String) (x : M ε α) (c : Conn) : (context text x).run c =
    match x.run c with
    | (.ok a, c') => (.ok a, c')
    | (.error e, c') => (.error (e.context text), c') :=
  rfl

@[simp] theorem fail_run (e : Failure ε) (c : Conn) :
    (fail e : M ε α).run c = (.error (.failed e), c) :=
  rfl

theorem readExact_append {n : ℕ} {c : Conn} {a rest : List UInt8} (h : a.length = n)
    (hc : c.input = a ++ rest) : (readExact n : M ε _).run c = (.ok a, { c with input := rest }) := by
  rw [readExact_run, hc, Bytes.takeExact_append h]

theorem readExact_short {n : ℕ} {c : Conn} (h : c.input.length < n) :
    (readExact n : M ε _).run c = (.error c.tail.stop, { c with input := [] }) := by
  rw [readExact_run, Bytes.takeExact_eq_none.mpr h]

@[simp] theorem writeAll_run (bs : List UInt8) (c : Conn) :
    (writeAll bs : M ε Unit).run c = (.ok (), { c with output := c.output ++ bs }) :=
  rfl

theorem context_ok {text : String} {x : M ε α} {c c' : Conn} {a : α} (h : x.run c = (.ok a, c')) :
    (context text x).run c = (.ok a, c') := by
  rw [context_run, h]

theorem context_error {text : String} {x : M ε α} {c c' : Conn} {e : Stop ε}
    (h : x.run c = (.error e, c')) : (context text x).run c = (.error (e.context text), c') := by
  rw [context_run, h]

/-! ## The error under its contexts -/

/-- The error without its contexts. -/
def Failure.root : Failure ε → Failure ε
  | .context _ source => source.root
  | e => e

/-- The way a program ended, without contexts. -/
def Stop.root : Stop ε → Stop ε
  | .failed e => .failed e.root
  | .blocked => .blocked

@[simp] theorem Stop.root_context (text : String) (e : Stop ε) :
    (e.context text).root = e.root := by
  cases e <;> rfl

theorem Failure.root_root (e : Failure ε) : e.root.root = e.root := by
  induction e with
  | context _ _ ih => exact ih
  | io _ | error _ => rfl

/-- The way a program ended, without contexts and the kind of an I/O error. -/
def Stop.cause : Stop ε → Stop ε
  | .failed e =>
    match e.root with
    | .io _ => .failed (.io .other)
    | e => .failed e
  | .blocked => .blocked

theorem Stop.cause_root (e : Stop ε) : e.root.cause = e.cause := by
  cases e with
  | failed e => simp only [root, cause, Failure.root_root]
  | blocked => rfl

/-- Two ends that are the same without contexts have the same cause. -/
theorem mapError_cause {r r' : Except (Stop ε) α}
    (h : r.mapError Stop.root = r'.mapError Stop.root) :
    r.mapError Stop.cause = r'.mapError Stop.cause := by
  have hroot : ∀ q : Except (Stop ε) α, (q.mapError Stop.root).mapError Stop.cause =
      q.mapError Stop.cause := by
    rintro (e | a)
    · exact congrArg Except.error e.cause_root
    · rfl
  rw [← hroot r, h, hroot]

/-! ## Programs that differ in their errors -/

/-- What programs do in the same way, seen through their errors, their sequences do. -/
theorem bind_mapError {ε' γ : Type} {e : Stop ε → γ} {e' : Stop ε' → γ} {x : M ε α} {y : M ε' α}
    {f : α → M ε β} {g : α → M ε' β}
    (hx : ∀ c, ((x.run c).1.mapError e, (x.run c).2) = ((y.run c).1.mapError e', (y.run c).2))
    (hf : ∀ a c, (((f a).run c).1.mapError e, ((f a).run c).2) =
      (((g a).run c).1.mapError e', ((g a).run c).2)) (c : Conn) :
    (((x >>= f).run c).1.mapError e, ((x >>= f).run c).2) =
      (((y >>= g).run c).1.mapError e', ((y >>= g).run c).2) := by
  rw [bind_run, bind_run]
  have h := hx c
  revert h
  rcases x.run c with ⟨e₁ | a, c₁⟩ <;> rcases y.run c with ⟨e₂ | a', c₂⟩ <;> intro h <;>
    simp only [Except.mapError, Prod.mk.injEq, Except.error.injEq, Except.ok.injEq,
      reduceCtorEq, false_and] at h
  · simpa only [Except.mapError, Prod.mk.injEq, Except.error.injEq] using h
  · obtain ⟨rfl, rfl⟩ := h
    exact hf a c₁

/-! ## Programs that differ in their contexts -/

/-- What a run shows, without the contexts of its error. -/
def outcome (r : Except (Stop ε) α × Conn) : Except (Stop ε) α × Conn :=
  (r.1.mapError Stop.root, r.2)

/-- `x` and `y` do the same, apart from the contexts of their errors. -/
def Alike (x y : M ε α) : Prop :=
  ∀ c, outcome (x.run c) = outcome (y.run c)

theorem Alike.refl (x : M ε α) : Alike x x := fun _ => rfl

theorem outcome_context (text : String) (x : M ε α) (c : Conn) :
    outcome ((ByteConn.context text x).run c) = outcome (x.run c) := by
  rw [context_run]
  rcases x.run c with ⟨_ | _, _⟩ <;> simp [outcome, Except.mapError]

theorem Alike.context {x y : M ε α} (h : Alike x y) (text text' : String) :
    Alike (context text x) (context text' y) := by
  intro c
  rw [outcome_context, outcome_context, h c]

theorem Alike.bind {x y : M ε α} {f g : α → M ε β} (hx : Alike x y)
    (hf : ∀ a, Alike (f a) (g a)) : Alike (x >>= f) (y >>= g) :=
  bind_mapError hx hf

/-! ## Programs with other error values -/

section Translates

variable {ε' : Type}

/-- Another error value under the same contexts. -/
def Failure.map (f : ε → ε') : Failure ε → Failure ε'
  | .io kind => .io kind
  | .error e => .error (f e)
  | .context text source => .context text (source.map f)

/-- Another error value, if the program failed. -/
def Stop.map (f : ε → ε') : Stop ε → Stop ε'
  | .failed e => .failed (e.map f)
  | .blocked => .blocked

/-- `y` does what `x` does with other error values, apart from the contexts of their errors. -/
def Translates (f : ε → ε') (x : M ε α) (y : M ε' α) : Prop :=
  ∀ c, ((x.run c).1.mapError fun e => (e.map f).root, (x.run c).2) = outcome (y.run c)

variable {f : ε → ε'}

theorem translates_pure (a : α) : Translates f (pure a) (pure a) := fun _ => rfl

theorem translates_writeAll (bs : List UInt8) : Translates f (writeAll bs) (writeAll bs) :=
  fun _ => rfl

theorem translates_readExact (n : ℕ) : Translates f (readExact n) (readExact n) := by
  intro c
  rw [readExact_run, readExact_run]
  cases Bytes.takeExact n c.input with
  | some r => rfl
  | none => cases htail : c.tail <;> rfl

/-- A context on the translation. -/
theorem Translates.context {x : M ε α} {y : M ε' α} (h : Translates f x y) (text : String) :
    Translates f x (context text y) := by
  intro c
  rw [outcome_context, h c]

theorem Translates.bind {x : M ε α} {y : M ε' α} {g : α → M ε β} {k : α → M ε' β}
    (hx : Translates f x y) (hg : ∀ a, Translates f (g a) (k a)) :
    Translates f (x >>= g) (y >>= k) :=
  bind_mapError hx hg

/-- The translation fails where the program does. -/
theorem Translates.failed {x : M ε α} {y : M ε' α} (h : Translates f x y) {c c' : Conn}
    {e : Failure ε} (hx : x.run c = (.error (.failed e), c')) :
    ∃ e', y.run c = (.error (.failed e'), c') := by
  have hc := h c
  rw [hx] at hc
  revert hc
  rcases y.run c with ⟨(e' | _) | a, c₂⟩ <;> intro hc <;>
    simp only [outcome, Except.mapError, Stop.map, Stop.root, Prod.mk.injEq, Except.error.injEq,
      reduceCtorEq, false_and] at hc
  exact ⟨e', by rw [hc.2]⟩

/-- The translation succeeds where the program does. -/
theorem Translates.ok {x : M ε α} {y : M ε' α} (h : Translates f x y) {c c' : Conn} {a : α} :
    x.run c = (.ok a, c') ↔ y.run c = (.ok a, c') := by
  have hc := h c
  revert hc
  rcases x.run c with ⟨e | b, c₁⟩ <;> rcases y.run c with ⟨e' | b', c₂⟩ <;> intro hc <;>
    simp only [outcome, Except.mapError, Prod.mk.injEq, Except.ok.injEq, reduceCtorEq,
      false_and] at hc ⊢
  rw [hc.1, hc.2]

end Translates

/-! ## Repetition -/

/-- Run a program on each value in turn. -/
def forEach (x : α → M ε Unit) : List α → M ε Unit
  | [] => pure ()
  | a :: l => do
    x a
    forEach x l

/-- Run a program a number of times. -/
def times (x : M ε α) : ℕ → M ε (List α)
  | 0 => pure []
  | n + 1 => do
    let a ← x
    let l ← times x n
    pure (a :: l)

/-- Values that are written one after the other. -/
theorem forEach_run {x : α → M ε Unit} {w : α → List UInt8} : ∀ {l : List α},
    (∀ a ∈ l, ∀ c, (x a).run c = (.ok (), { c with output := c.output ++ w a })) →
    ∀ c, (forEach x l).run c = (.ok (), { c with output := c.output ++ l.flatMap w })
  | [], _, c => by
    rw [forEach, pure_run, List.flatMap_nil, List.append_nil]
  | a :: l, h, c => by
    rw [forEach, bind_ok (h a List.mem_cons_self c),
      forEach_run fun b hb => h b (List.mem_cons_of_mem a hb), List.flatMap_cons,
      List.append_assoc]

/-- Values that are read one after the other. -/
theorem times_run {x : M ε α} {w : α → List UInt8} : ∀ {l : List α},
    (∀ a ∈ l, ∀ c rest, c.input = w a ++ rest → x.run c = (.ok a, { c with input := rest })) →
    ∀ c rest, c.input = l.flatMap w ++ rest →
      (times x l.length).run c = (.ok l, { c with input := rest })
  | [], _, c, rest, hc => by
    rw [List.flatMap_nil, List.nil_append] at hc
    rw [List.length_nil, times, pure_run, ← hc]
  | a :: l, h, c, rest, hc => by
    rw [List.flatMap_cons, List.append_assoc] at hc
    have hrest := times_run (fun b hb => h b (List.mem_cons_of_mem a hb))
      { c with input := l.flatMap w ++ rest } rest rfl
    rw [List.length_cons, times, bind_ok (h a List.mem_cons_self c _ hc), bind_ok hrest, pure_run]

/-! ## Programs that parse -/

/-- `x` takes from the input what `p` takes, and fails or waits where `p` rejects. -/
structure Parses (x : M ε α) (p : List UInt8 → Option (α × List UInt8)) : Prop where
  ok : ∀ {c a rest}, p c.input = some (a, rest) → x.run c = (.ok a, { c with input := rest })
  error : ∀ {c}, p c.input = none → ∃ e input, x.run c = (.error e, { c with input := input })

theorem parses_readExact (n : ℕ) : Parses (readExact n : M ε _) (Bytes.takeExact n) where
  ok h := by rw [readExact_run, h]
  error h := by
    rw [readExact_run, h]
    exact ⟨_, _, rfl⟩

theorem Parses.context {x : M ε α} {p : List UInt8 → Option (α × List UInt8)}
    (h : Parses x p) (text : String) : Parses (context text x) p where
  ok hp := context_ok (h.ok hp)
  error hp := by
    obtain ⟨e, input, hx⟩ := h.error hp
    exact ⟨_, input, context_error hx⟩

/-- One parser after the other. -/
theorem Parses.bind {x : M ε α} {p : List UInt8 → Option (α × List UInt8)} {f : α → M ε β}
    {q : α → List UInt8 → Option (β × List UInt8)} (hx : Parses x p)
    (hf : ∀ a, Parses (f a) (q a)) :
    Parses (x >>= f) fun bs => (p bs).bind fun r => q r.1 r.2 where
  ok := by
    intro c b rest h
    obtain ⟨⟨a, r⟩, hp, hq⟩ := Option.bind_eq_some_iff.mp h
    rw [bind_ok (hx.ok hp), (hf a).ok hq]
  error := by
    intro c h
    cases hp : p c.input with
    | none =>
      obtain ⟨e, input, hxe⟩ := hx.error hp
      exact ⟨e, input, bind_error hxe⟩
    | some r =>
      rw [hp, Option.bind_some] at h
      obtain ⟨e, input, hfe⟩ := (hf r.1).error (c := { c with input := r.2 }) h
      exact ⟨e, input, by rw [bind_ok (hx.ok hp), hfe]⟩

/-- Accept or reject a value that was read, taking no more input. -/
theorem parses_check {x : M ε α} {o : Option α} (h : ∀ a, o = some a → x = pure a)
    (h' : o = none → ∃ e, x = fail e) : Parses x fun bs => o.map fun a => (a, bs) where
  ok := by
    intro c a rest ho
    obtain ⟨b, hb, hr⟩ := Option.map_eq_some_iff.mp ho
    obtain ⟨rfl, rfl⟩ := Prod.mk.inj hr
    rw [h b hb]
    rfl
  error := by
    intro c ho
    obtain ⟨e, he⟩ := h' (Option.map_eq_none_iff.mp ho)
    rw [he]
    exact ⟨_, c.input, rfl⟩

/-- A program parses if its translation does. -/
theorem Translates.parses {ε' : Type} {f : ε → ε'} {x : M ε α} {y : M ε' α}
    {p : List UInt8 → Option (α × List UInt8)} (h : Translates f x y) (hy : Parses y p) :
    Parses x p where
  ok hp := h.ok.mpr (hy.ok hp)
  error := by
    intro c hp
    obtain ⟨e, input, hye⟩ := hy.error hp
    have hc := h c
    rw [hye] at hc
    revert hc
    rcases x.run c with ⟨e' | a, c₁⟩ <;> intro hc
    · obtain rfl : c₁ = { c with input := input } := (Prod.mk.inj hc).2
      exact ⟨e', input, rfl⟩
    · cases (Prod.mk.inj hc).1

/-! ## Programs that do not wait -/

/-- On a stream that ends, `x` does not wait for bytes that do not arrive. -/
def Prompt (x : M ε α) : Prop :=
  ∀ c, c.tail ≠ .silent → (x.run c).1 ≠ .error .blocked ∧ (x.run c).2.tail ≠ .silent

theorem prompt_pure (a : α) : Prompt (pure a : M ε α) := fun _ h => ⟨nofun, h⟩

theorem prompt_fail (e : Failure ε) : Prompt (fail e : M ε α) :=
  fun _ h => ⟨by simp, h⟩

theorem prompt_writeAll (bs : List UInt8) : Prompt (writeAll bs : M ε Unit) :=
  fun _ h => ⟨nofun, h⟩

theorem prompt_readExact (n : ℕ) : Prompt (readExact n : M ε _) := by
  intro c h
  rw [readExact_run]
  cases Bytes.takeExact n c.input with
  | some r => exact ⟨nofun, h⟩
  | none =>
    refine ⟨?_, h⟩
    cases htail : c.tail with
    | silent => exact absurd htail h
    | eof | broken => simp [StreamEnd.stop]

theorem prompt_liftExcept (e : Except ε α) : Prompt (liftExcept e) := by
  cases e with
  | error e => exact prompt_fail _
  | ok a => exact prompt_pure a

theorem Prompt.context {x : M ε α} (hx : Prompt x) (text : String) : Prompt (context text x) := by
  intro c h
  have hc := hx c h
  rw [context_run]
  revert hc
  rcases x.run c with ⟨(e | _) | a, c₁⟩ <;> rintro ⟨hne, htail⟩
  · exact ⟨by simp [Stop.context], htail⟩
  · exact absurd rfl hne
  · exact ⟨nofun, htail⟩

theorem Prompt.bind {x : M ε α} {f : α → M ε β} (hx : Prompt x) (hf : ∀ a, Prompt (f a)) :
    Prompt (x >>= f) := by
  intro c h
  have hc := hx c h
  rw [bind_run]
  revert hc
  rcases x.run c with ⟨e | a, c₁⟩ <;> rintro ⟨hne, htail⟩
  · exact ⟨by simpa using hne, htail⟩
  · exact hf a c₁ htail

/-- What a parser rejects is then an error. -/
theorem Parses.failed {x : M ε α} {p : List UInt8 → Option (α × List UInt8)} (h : Parses x p)
    (hx : Prompt x) {c : Conn} (hp : p c.input = none) (htail : c.tail ≠ .silent) :
    ∃ e c', x.run c = (.error (.failed e), c') := by
  obtain ⟨e, input, he⟩ := h.error hp
  cases e with
  | failed e => exact ⟨e, _, he⟩
  | blocked => exact absurd (congrArg Prod.fst he) (hx c htail).1

/-! ## Programs whose input comes later -/

/-- With more input, a program that has ended ends in the same way, and one that waits writes
more. -/
structure Causal (x : M ε α) : Prop where
  tail : ∀ c, (x.run c).2.tail = c.tail
  appends : ∀ c, c.output <+: (x.run c).2.output
  ended : ∀ {c} bs, c.tail = .silent → (x.run c).1 ≠ .error .blocked →
    x.run { c with input := c.input ++ bs } =
      ((x.run c).1, { (x.run c).2 with input := (x.run c).2.input ++ bs })
  waits : ∀ {c} bs, c.tail = .silent → (x.run c).1 = .error .blocked →
    (x.run c).2.output <+: (x.run { c with input := c.input ++ bs }).2.output

theorem causal_pure (a : α) : Causal (pure a : M ε α) where
  tail _ := rfl
  appends _ := List.prefix_refl _
  ended _ _ _ := rfl
  waits _ _ h := by cases h

theorem causal_fail (e : Failure ε) : Causal (fail e : M ε α) where
  tail _ := rfl
  appends _ := List.prefix_refl _
  ended _ _ _ := rfl
  waits _ _ h := by cases h

theorem causal_writeAll (bs : List UInt8) : Causal (writeAll bs : M ε Unit) where
  tail _ := rfl
  appends _ := List.prefix_append _ _
  ended _ _ _ := rfl
  waits _ _ h := by cases h

theorem causal_readExact (n : ℕ) : Causal (readExact n : M ε _) where
  tail c := by
    rw [readExact_run]
    cases Bytes.takeExact n c.input <;> rfl
  appends c := by
    rw [readExact_run]
    cases Bytes.takeExact n c.input <;> exact List.prefix_refl _
  ended := by
    intro c bs htail hne
    rw [readExact_run] at hne ⊢
    rw [readExact_run]
    cases htake : Bytes.takeExact n c.input with
    | none =>
      rw [htake, htail] at hne
      exact absurd rfl hne
    | some r =>
      obtain ⟨a, rest⟩ := r
      obtain ⟨hlen, hinput⟩ := Bytes.takeExact_eq_some.mp htake
      dsimp only
      rw [hinput, List.append_assoc, Bytes.takeExact_append hlen]
  waits := by
    intro c bs htail h
    rw [readExact_run] at h ⊢
    rw [readExact_run]
    cases htake : Bytes.takeExact n c.input with
    | none => cases Bytes.takeExact n (c.input ++ bs) <;> exact List.prefix_refl _
    | some r =>
      rw [htake] at h
      cases h

theorem causal_liftExcept (e : Except ε α) : Causal (liftExcept e) := by
  cases e with
  | error e => exact causal_fail _
  | ok a => exact causal_pure a

theorem Causal.context {x : M ε α} (h : Causal x) (text : String) : Causal (context text x) where
  tail c := by
    have htail := h.tail c
    rw [context_run]
    revert htail
    rcases x.run c with ⟨_ | _, _⟩ <;> exact id
  appends c := by
    have happends := h.appends c
    rw [context_run]
    revert happends
    rcases x.run c with ⟨_ | _, _⟩ <;> exact id
  ended := by
    intro c bs htail hne
    have hended := h.ended bs htail
    rw [context_run] at hne ⊢
    rw [context_run]
    revert hne hended
    rcases x.run c with ⟨(e | _) | a, c₁⟩ <;> intro hne hended
    · rw [hended nofun]
    · exact absurd rfl hne
    · rw [hended nofun]
  waits := by
    intro c bs htail hblocked
    have hwaits := h.waits bs htail
    rw [context_run] at hblocked ⊢
    rw [context_run]
    revert hblocked hwaits
    rcases x.run c with ⟨(e | _) | a, c₁⟩ <;> intro hblocked hwaits
    · cases hblocked
    · have hprefix := hwaits rfl
      revert hprefix
      rcases x.run { c with input := c.input ++ bs } with ⟨_ | _, _⟩ <;> exact id
    · cases hblocked

theorem Causal.bind {x : M ε α} {f : α → M ε β} (hx : Causal x) (hf : ∀ a, Causal (f a)) :
    Causal (x >>= f) where
  tail c := by
    have htail := hx.tail c
    rw [bind_run]
    revert htail
    rcases x.run c with ⟨_ | a, c₁⟩ <;> intro htail
    · exact htail
    · exact ((hf a).tail c₁).trans htail
  appends c := by
    have happends := hx.appends c
    rw [bind_run]
    revert happends
    rcases x.run c with ⟨_ | a, c₁⟩ <;> intro happends
    · exact happends
    · exact happends.trans ((hf a).appends c₁)
  ended := by
    intro c bs htail hne
    have hended := hx.ended bs htail
    have htail₁ := hx.tail c
    rw [bind_run] at hne ⊢
    rw [bind_run]
    revert hne hended htail₁
    rcases x.run c with ⟨(e | _) | a, c₁⟩ <;> intro hne hended htail₁
    · rw [hended nofun]
    · exact absurd rfl hne
    · rw [hended nofun]
      exact (hf a).ended bs (htail₁.trans htail) hne
  waits := by
    intro c bs htail hblocked
    have hended := hx.ended bs htail
    have hwaits := hx.waits bs htail
    have htail₁ := hx.tail c
    rw [bind_run] at hblocked ⊢
    rw [bind_run]
    revert hblocked hended hwaits htail₁
    rcases x.run c with ⟨(e | _) | a, c₁⟩ <;> intro hblocked hended hwaits htail₁
    · cases hblocked
    · have hprefix := hwaits rfl
      revert hprefix
      rcases x.run { c with input := c.input ++ bs } with ⟨_ | a, c₂⟩ <;> intro hprefix
      · exact hprefix
      · exact hprefix.trans ((hf a).appends c₂)
    · rw [hended nofun]
      exact (hf a).waits bs (htail₁.trans htail) hblocked

/-- A program that has read `input`, to which more may come. -/
def M.after (x : M ε α) (input : List UInt8) : Except (Stop ε) α × Conn :=
  x.run { input := input, tail := .silent }

theorem Causal.output_isPrefix {x : M ε α} (h : Causal x) {xs ys : List UInt8} (hp : xs <+: ys) :
    (x.after xs).2.output <+: (x.after ys).2.output := by
  obtain ⟨bs, rfl⟩ := hp
  by_cases hblocked : (x.after xs).1 = .error .blocked
  · exact h.waits bs rfl hblocked
  · have hsame : (x.after (xs ++ bs)).2.output = (x.after xs).2.output := by
      unfold M.after
      rw [h.ended (c := { input := xs, tail := .silent }) bs rfl hblocked]
    exact ⟨[], (List.append_nil _).trans hsame.symm⟩

/-- A program that has ended does so in the same way when more comes, and leaves that unread. -/
theorem Causal.after_append {x : M ε α} (h : Causal x) {xs : List UInt8} (bs : List UInt8)
    (hended : (x.after xs).1 ≠ .error .blocked) : (x.after (xs ++ bs)).1 = (x.after xs).1 ∧
      (x.after (xs ++ bs)).2.input = (x.after xs).2.input ++ bs := by
  unfold M.after
  rw [h.ended (c := { input := xs, tail := .silent }) bs rfl hended]
  exact ⟨rfl, rfl⟩

end ByteConn
