/-
# The parts of a command

A part of a command that ends well hands its session on to the next one (`Command.bind_apply`).
The lemmas say what the session is after each of the small parts: to ask something about the disk,
to read a file or to write one, to report a step, and to take what was read in a file or complain of
it.
-/
import Idl.Command
import Idl.Proofs.Diagnostic.Cache
import Mathlib.Tactic.Common

namespace Idl

variable {_ : Machine}

namespace Command

variable {l : Location} {p : FilePath} {t : Text} {x : Session}

lemma bind_apply {α β : Type} {P : Command α} {Q : α → Command β} {a : α} {s s' : Session}
    (h : P s = .ok a s') : (P >>= Q) s = Q a s' := by
  change EStateM.bind P Q s = _
  rw [EStateM.bind, h]

/-- A part that is cut short cuts short what it is a part of. -/
lemma bind_apply_error {α β : Type} {P : Command α} {Q : α → Command β} {c : Crash}
    {s s' : Session} (h : P s = .error c s') : (P >>= Q) s = .error c s' := by
  change EStateM.bind P Q s = _
  rw [EStateM.bind, h]

lemma report_apply (part t : Text) (x : Session) : report part t x = .ok () { x with
    err := x.err ++ if x.verbose then "DEBUG " ++ part ++ ": " ++ t ++ "\n" else [] } := by
  obtain ⟨disk, verbose, out, err⟩ := x
  cases verbose with
  | true =>
    simp only [if_true, ← List.append_assoc]
    rfl
  | false =>
    simp only [Bool.false_eq_true, if_false, List.append_nil]
    rfl

/-- A report ends well, and changes nothing unless reports are wanted. -/
lemma exists_report (part t : Text) (session : Session) :
    ∃ session', report part t session = .ok () session' ∧
      (session.verbose = false → session' = session) := by
  refine ⟨_, rfl, fun h => ?_⟩
  simp [h]

lemma say_apply (t : Text) (x : Session) :
    say t x = .ok () { x with out := x.out ++ (t.withoutSequences ++ "\n") } := by
  rw [← List.append_assoc]
  rfl

lemma complain_apply (t : Text) (x : Session) :
    complain t x = .ok () { x with err := x.err ++ (t.withoutSequences ++ "\n") } := by
  rw [← List.append_assoc]
  rfl

/-- What is said of a failure: one line, or a rendering with an excerpt of the source. -/
def complaint (pretty : Bool) (file source : Text) (e : SyntaxError) : Text :=
  if pretty then e.shown (fun _ => none) file source else e.failure.inFile file

/-- What is said of a file that was read: why it is no module, or if reports are wanted, what
module it is. -/
def reading (pretty verbose : Bool) (file source : Text) : Except SyntaxError Module → Text
  | .ok m =>
    if verbose then
      "DEBUG " ++ "duet.parser" ++ ": " ++ ("parsed " ++ file ++ ": " ++
        Text.ofNat m.imports.length ++ " import(s), " ++ Text.ofNat m.declarations.length ++
        " type declaration(s)") ++ "\n"
    else []
  | .error e => (complaint pretty file source e).withoutSequences ++ "\n"

/-- What was read is taken or complained of, on the channel for complaints. -/
lemma accept_apply (pretty : Bool) (file source : Text) (read : Except SyntaxError Module)
    (x : Session) : accept pretty file source read x =
      .ok read.toOption { x with err := x.err ++ reading pretty x.verbose file source read } := by
  cases read with
  | ok m => exact bind_apply (report_apply _ _ x)
  | error e =>
    refine bind_apply (Eq.trans ?_ (complain_apply (complaint pretty file source e) x))
    unfold complainOf complaint
    cases pretty <;> rfl

lemma exists_accept (pretty : Bool) (file source : Text) (read : Except SyntaxError Module)
    (x : Session) :
    ∃ err, accept pretty file source read x = .ok read.toOption { x with err := err } :=
  ⟨_, accept_apply pretty file source read x⟩

/-- A question about the disk changes nothing. -/
lemma ask_apply {ε α : Type} {cause : ε → Crash} {question : Disk → Except ε α} {a : α}
    (h : question x.disk = .ok a) : ask cause question x = .ok a x := by
  have hget : (get : Command Session) x = .ok x x := rfl
  rw [ask, bind_apply hget]
  simp only [h]
  rfl

/-- Reading a file changes nothing. -/
lemma readFile_apply (hl : x.disk.locate p = .ok l) (ht : x.disk.fileAt? l = some t) :
    readFile p x = .ok t.withPlainBreaks x := by
  have hget : (get : Command Session) x = .ok x x := rfl
  rw [readFile, bind_apply (ask_apply hl), bind_apply hget]
  simp only [ht]
  rfl

/-- A text is written to a file as a whole, but one with a surrogate leaves the file empty. -/
lemma writeFile_apply (hl : x.disk.locate p = .ok l) (t : Text) : writeFile p t x =
    if t.hasSurrogate then .error .surrogate { x with disk := x.disk.write l [] }
    else .ok () { x with disk := x.disk.write l t } := by
  rw [writeFile, bind_apply (ask_apply hl)]
  by_cases h : t.hasSurrogate = true
  · simp only [h, if_true]
    rfl
  · simp only [h]
    rfl

lemma onEach_cons {α β : Type} {act : α → Command β} {a : α} {as : List α} {b : β} {bs : List β}
    {x' x'' : Session} (ha : act a x = .ok b x') (has : onEach act as x' = .ok bs x'') :
    onEach act (a :: as) x = .ok (b :: bs) x'' := by
  rw [onEach, bind_apply ha, bind_apply has]
  rfl

end Command

namespace Run

variable {d : Disk} {l : Location} {path? : Option Text} {verbose : Bool}

/-- A command but `view` is run with the working folder if no path is given. -/
lemma ofWords_of_find (verb : Verb) (flags : List Flag) (input : Text) (verbose : Bool)
    (hverb : verb ≠ .view) (hpath : d.find (path?.getD ".") = .ok l) :
    ofWords d input verbose verb ⟨flags, path?.toList⟩ =
      ofCommand d verbose (task verb flags (path?.getD ".") input) := by
  have hhead : path?.toList.head?.getD "." = path?.getD "." := by cases path? <;> rfl
  have hlength : path?.toList.length ≤ 1 := by cases path? <;> simp
  have hpath? : Run.path? verb ⟨flags, path?.toList⟩ = some (path?.getD ".") := by
    cases verb <;> first | exact congrArg some hhead | exact absurd rfl hverb
  have haccepts : accepts d verb l = true := by
    cases verb <;> first | rfl | exact absurd rfl hverb
  simp only [ofWords, hpath?, hpath, haccepts, hlength, and_self, if_true]

lemma ofCommand_of_ok {act : Command Bool} {well : Bool} {x : Session}
    (h : act ⟨d, verbose, [], []⟩ = .ok well x) : ofCommand d verbose act =
      ⟨if well then .success else .failure, x.disk, x.out, x.err⟩ := by
  rw [ofCommand, EStateM.run, h]

lemma ofCommand_of_error {act : Command Bool} {c : Crash} {x : Session}
    (h : act ⟨d, verbose, [], []⟩ = .error c x) :
    ofCommand d verbose act = ⟨.crash c, x.disk, x.out, x.err⟩ := by
  rw [ofCommand, EStateM.run, h]

end Run

end Idl
