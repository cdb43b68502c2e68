import Rtdp.Lib.Runs

/-!
# Two parties over an unreliable medium

A party takes steps; some of them take a message from the medium, and any of
them may put messages there. The medium keeps all that was ever sent and hands
over any of it, at any time and as often as it likes: messages are lost,
repeated, delayed and reordered.

`Link.holds_run` is the rule for what holds in every run. Each party keeps the
invariant, relying on what was promised of the message it takes, and keeps
every promise: those made before, and the same for what it sends.
-/

namespace Network

/-- A party in states `σ` with steps `α`, which takes messages `ν` and sends messages `μ`. -/
structure Party (σ α ν μ : Type) where
  step : σ → α → σ
  /-- The message a step takes from the medium. -/
  takes : α → Option ν
  sends : σ → α → List μ

/-- Two parties, and all they have sent to each other, oldest first. -/
structure Link (σ τ μ ν : Type) where
  left : σ
  right : τ
  toRight : List μ
  toLeft : List ν

/-- A step of either party. -/
inductive Move (α β : Type) where
  | left (action : α)
  | right (action : β)

namespace Link

variable {σ τ α β μ ν : Type} (L : Party σ α ν μ) (R : Party τ β μ ν)

/-- The parties before they have sent anything. -/
def of (left : σ) (right : τ) : Link σ τ μ ν := ⟨left, right, [], []⟩

def step (link : Link σ τ μ ν) : Move α β → Link σ τ μ ν
  | .left a =>
    { link with left := L.step link.left a, toRight := link.toRight ++ L.sends link.left a }
  | .right b =>
    { link with right := R.step link.right b, toLeft := link.toLeft ++ R.sends link.right b }

/-- What the move takes has been sent. -/
def Delivers (link : Link σ τ μ ν) : Move α β → Prop
  | .left a => ∀ n, L.takes a = some n → n ∈ link.toLeft
  | .right b => ∀ m, R.takes b = some m → m ∈ link.toRight

/-! ## What was promised -/

variable (Inv : σ → τ → Prop) (ToRight : σ → τ → μ → Prop) (ToLeft : σ → τ → ν → Prop)

/-- The invariant holds, and so does the promise for every message. -/
structure Holds (link : Link σ τ μ ν) : Prop where
  parties : Inv link.left link.right
  toRight : ∀ m ∈ link.toRight, ToRight link.left link.right m
  toLeft : ∀ n ∈ link.toLeft, ToLeft link.left link.right n

/-- From `s, t` to `s', t'` the invariant and all promises are kept, those for the new messages
included. -/
structure Keeps (s : σ) (t : τ) (s' : σ) (t' : τ) (newRight : List μ) (newLeft : List ν) : Prop where
  parties : Inv s' t'
  toRight : ∀ m, ToRight s t m → ToRight s' t' m
  toLeft : ∀ n, ToLeft s t n → ToLeft s' t' n
  newRight : ∀ m ∈ newRight, ToRight s' t' m
  newLeft : ∀ n ∈ newLeft, ToLeft s' t' n

variable {L R Inv ToRight ToLeft} {link : Link σ τ μ ν}

theorem Holds.keeps {s' : σ} {t' : τ} {newRight : List μ} {newLeft : List ν}
    (h : Holds Inv ToRight ToLeft link)
    (keeps : Keeps Inv ToRight ToLeft link.left link.right s' t' newRight newLeft) :
    Holds Inv ToRight ToLeft ⟨s', t', link.toRight ++ newRight, link.toLeft ++ newLeft⟩ where
  parties := keeps.parties
  toRight := by
    intro m hm
    rcases List.mem_append.mp hm with hold | hnew
    · exact keeps.toRight m (h.toRight m hold)
    · exact keeps.newRight m hnew
  toLeft := by
    intro n hn
    rcases List.mem_append.mp hn with hold | hnew
    · exact keeps.toLeft n (h.toLeft n hold)
    · exact keeps.newLeft n hnew

theorem Holds.of {s : σ} {t : τ} (parties : Inv s t) : Holds Inv ToRight ToLeft (of s t) :=
  ⟨parties, fun _ hm => absurd hm List.not_mem_nil, fun _ hn => absurd hn List.not_mem_nil⟩

variable (allowed : Link σ τ μ ν → Move α β → Prop)

/-- **Step** -/
theorem Holds.step
    (left : ∀ link a, Inv link.left link.right → allowed link (.left a) →
      (∀ n, L.takes a = some n → ToLeft link.left link.right n) →
      Keeps Inv ToRight ToLeft link.left link.right (L.step link.left a) link.right (L.sends link.left a) [])
    (right : ∀ link b, Inv link.left link.right → allowed link (.right b) →
      (∀ m, R.takes b = some m → ToRight link.left link.right m) →
      Keeps Inv ToRight ToLeft link.left link.right link.left (R.step link.right b) []
        (R.sends link.right b))
    (h : Holds Inv ToRight ToLeft link) {move : Move α β} (delivers : Delivers L R link move)
    (hallowed : allowed link move) : Holds Inv ToRight ToLeft (step L R link move) := by
  cases move with
  | left a =>
    have keeps := left link a h.parties hallowed fun n hn => h.toLeft n (delivers n hn)
    have holds := h.keeps keeps
    rwa [List.append_nil] at holds
  | right b =>
    have keeps := right link b h.parties hallowed fun m hm => h.toRight m (delivers m hm)
    have holds := h.keeps keeps
    rwa [List.append_nil] at holds

/-- **Invariant rule**: two parties that keep the invariant and their promises do so in every run,
whatever the medium hands over and when. -/
theorem holds_run
    (left : ∀ link a, Inv link.left link.right → allowed link (.left a) →
      (∀ n, L.takes a = some n → ToLeft link.left link.right n) →
      Keeps Inv ToRight ToLeft link.left link.right (L.step link.left a) link.right (L.sends link.left a) [])
    (right : ∀ link b, Inv link.left link.right → allowed link (.right b) →
      (∀ m, R.takes b = some m → ToRight link.left link.right m) →
      Keeps Inv ToRight ToLeft link.left link.right link.left (R.step link.right b) []
        (R.sends link.right b))
    (init : Holds Inv ToRight ToLeft link) {moves : List (Move α β)}
    (delivered : Runs.Each (step L R) (Delivers L R) link moves)
    (each : Runs.Each (step L R) allowed link moves) :
    Holds Inv ToRight ToLeft (Runs.run (step L R) link moves) :=
  Runs.invariant (Holds Inv ToRight ToLeft) (fun _ _ h ⟨hd, ha⟩ => h.step allowed left right hd ha) init
    (delivered.and each)

end Link

/-! ## A medium that loses nothing -/

/-- A link, and what has been sent to the right and not been handed over yet, oldest first. -/
structure Queue (σ τ μ ν : Type) where
  link : Link σ τ μ ν
  waiting : List μ

namespace Queue

variable {σ τ α β μ ν : Type} (L : Party σ α ν μ) (R : Party τ β μ ν)

def of (left : σ) (right : τ) : Queue σ τ μ ν := ⟨Link.of left right, []⟩

def step (queue : Queue σ τ μ ν) (move : Move α β) : Queue σ τ μ ν where
  link := Link.step L R queue.link move
  waiting :=
    match move with
    | .left a => queue.waiting ++ L.sends queue.link.left a
    | .right b => if (R.takes b).isSome then queue.waiting.tail else queue.waiting

/-- What goes to the right is handed over once and in order. -/
def InOrder (queue : Queue σ τ μ ν) : Move α β → Prop
  | .left a => ∀ n, L.takes a = some n → n ∈ queue.link.toLeft
  | .right b => ∀ m, R.takes b = some m → queue.waiting.head? = some m

end Queue

end Network
