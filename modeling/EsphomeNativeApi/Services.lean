import EsphomeNativeApi.Runs

/-!
A service seen from outside: it takes its client's messages one at a time, answers some and
passes others on, and sends its answers and what is posted to it out through one queue,
until it has sent its farewell.
-/

namespace EsphomeNativeApi.Services

open Runs

variable {M O : Type}

structure Duties (M : Type) where
  answer? : M → Option M
  forward? : M → Option M
  farewell : M → Bool

/-- What goes out names the origin it was posted from, or none for an answer. -/
structure Service (M O : Type) where
  inbox : List M
  handled : List M
  due : List M
  outbox : List (Option O × M)
  transmitted : List (Option O × M)
  commands : List M
  closed : Bool

inductive Event (M O : Type) where
  | handle
  | accept
  | post (origin : O) (message : M)
  | transmit
  | close

def posted : Event M O → List (O × M)
  | .post origin message => [(origin, message)]
  | _ => []

namespace Service

def initial (requests : List M) : Service M O := ⟨requests, [], [], [], [], [], false⟩

def step (D : Duties M) (t : Service M O) : Event M O → Option (Service M O)
  | .handle =>
    match t.due, t.inbox with
    | [], message :: inbox => some { t with
        inbox := inbox
        handled := t.handled ++ [message]
        due := (D.answer? message).toList
        commands := t.commands ++ (D.forward? message).toList }
    | _, _ => none
  | .accept =>
    match t.closed, t.due with
    | false, message :: due => some { t with due := due, outbox := t.outbox ++ [(none, message)] }
    | _, _ => none
  | .post origin message =>
    match t.closed with
    | false => some { t with outbox := t.outbox ++ [(some origin, message)] }
    | true => none
  | .transmit =>
    match t.closed, t.outbox with
    | false, entry :: outbox => some { t with
        outbox := outbox
        transmitted := t.transmitted ++ [entry]
        closed := D.farewell entry.2 }
    | _, _ => none
  | .close => some { t with closed := true }

def accepted (t : Service M O) : List (Option O × M) := t.transmitted ++ t.outbox

end Service

def answersIn (entries : List (Option O × M)) : List M :=
  entries.filterMap fun entry => if entry.1.isNone then some entry.2 else none

def postsIn (entries : List (Option O × M)) : List (O × M) :=
  entries.filterMap fun entry => entry.1.map fun origin => (origin, entry.2)

/-- Every request is handled once and in order, every answer and every post goes out once
and in order, and nothing goes out after a farewell. -/
structure Orderly (D : Duties M) (requests : List M) (events : List (Event M O)) (t : Service M O) : Prop where
  requests : t.handled ++ t.inbox = requests
  answers : answersIn t.accepted ++ t.due = t.handled.filterMap D.answer?
  commands : t.commands = t.handled.filterMap D.forward?
  posts : postsIn t.accepted = events.flatMap posted
  farewell : ∀ entry ∈ t.transmitted, D.farewell entry.2 = true →
    t.closed = true ∧ t.transmitted.getLast? = some entry

variable {D : Duties M} {requests : List M} {events : List (Event M O)} {t u : Service M O}

theorem orderly_initial : Orderly D requests [] (.initial requests : Service M O) where
  requests := rfl
  answers := rfl
  commands := rfl
  posts := rfl
  farewell := List.forall_mem_nil _

inductive Takes (D : Duties M) (t : Service M O) : Event M O → Service M O → Prop where
  | handled (message : M) (inbox : List M) (undue : t.due = []) (next : t.inbox = message :: inbox) :
      Takes D t .handle { t with
        inbox := inbox
        handled := t.handled ++ [message]
        due := (D.answer? message).toList
        commands := t.commands ++ (D.forward? message).toList }
  | accepted (message : M) (due : List M) (running : t.closed = false) (next : t.due = message :: due) :
      Takes D t .accept { t with due := due, outbox := t.outbox ++ [(none, message)] }
  | posted (origin : O) (message : M) (running : t.closed = false) :
      Takes D t (.post origin message) { t with outbox := t.outbox ++ [(some origin, message)] }
  | transmitted (entry : Option O × M) (outbox : List (Option O × M)) (running : t.closed = false)
      (next : t.outbox = entry :: outbox) :
      Takes D t .transmit { t with
        outbox := outbox
        transmitted := t.transmitted ++ [entry]
        closed := D.farewell entry.2 }
  | closed : Takes D t .close { t with closed := true }

theorem step_takes {event : Event M O} : t.step D event = some u ↔ Takes D t event u := by
  constructor
  · intro h
    cases event with
    | handle =>
      simp only [Service.step] at h
      split at h
      · rename_i message inbox hdue hinbox
        cases h
        exact .handled message inbox hdue hinbox
      · cases h
    | accept =>
      simp only [Service.step] at h
      split at h
      · rename_i message due hrunning hdue
        cases h
        exact .accepted message due hrunning hdue
      · cases h
    | post origin message =>
      simp only [Service.step] at h
      split at h
      · rename_i hrunning
        cases h
        exact .posted origin message hrunning
      · cases h
    | transmit =>
      simp only [Service.step] at h
      split at h
      · rename_i entry outbox hrunning houtbox
        cases h
        exact .transmitted entry outbox hrunning houtbox
      · cases h
    | close =>
      cases h
      exact .closed
  · intro h
    cases h with
    | handled message inbox undue next => simp [Service.step, undue, next]
    | accepted message due running next => simp [Service.step, running, next]
    | posted origin message running => simp [Service.step, running]
    | transmitted entry outbox running next => simp [Service.step, running, next]
    | closed => rfl

theorem orderly_takes (h : Orderly D requests events t) {event : Event M O} (ht : Takes D t event u) :
    Orderly D requests (events ++ [event]) u := by
  have hquiet : t.closed = false → ∀ entry ∈ t.transmitted, D.farewell entry.2 = false := by
    intro hrunning entry hm
    by_contra hlast
    rw [Bool.not_eq_false] at hlast
    rw [(h.farewell entry hm hlast).1] at hrunning
    cases hrunning
  cases ht with
  | handled message inbox undue next =>
    refine ⟨?_, ?_, ?_, ?_, h.farewell⟩
    · rw [← h.requests, next]
      simp
    · have hanswers := h.answers
      rw [undue, List.append_nil] at hanswers
      change answersIn t.accepted ++ _ = _
      rw [hanswers, List.filterMap_append, List.filterMap_cons, List.filterMap_nil]
      cases D.answer? message <;> rfl
    · change t.commands ++ _ = _
      rw [h.commands, List.filterMap_append, List.filterMap_cons, List.filterMap_nil]
      cases D.forward? message <;> rfl
    · simpa [Service.accepted, posted] using h.posts
  | accepted message due running next =>
    refine ⟨h.requests, ?_, h.commands, ?_, h.farewell⟩
    · rw [← h.answers, next]
      simp [Service.accepted, answersIn]
    · simpa [Service.accepted, postsIn, posted] using h.posts
  | posted origin message running =>
    refine ⟨h.requests, ?_, h.commands, ?_, h.farewell⟩
    · rw [← h.answers]
      simp [Service.accepted, answersIn]
    · rw [List.flatMap_append, ← h.posts]
      simp [Service.accepted, postsIn, posted]
  | transmitted entry outbox running next =>
    have hsame : t.transmitted ++ [entry] ++ outbox = t.accepted := by
      rw [Service.accepted, next, List.append_assoc, List.singleton_append]
    refine ⟨h.requests, ?_, h.commands, ?_, ?_⟩
    · rw [Service.accepted, hsame]
      exact h.answers
    · rw [Service.accepted, hsame, h.posts]
      simp [posted]
    · intro e he hlast
      rcases List.mem_append.mp he with he | he
      · rw [hquiet running e he] at hlast
        cases hlast
      · rw [List.mem_singleton.mp he] at hlast ⊢
        exact ⟨hlast, by simp⟩
  | closed =>
    refine ⟨h.requests, h.answers, h.commands, ?_, ?_⟩
    · simpa [posted, Service.accepted] using h.posts
    · exact fun entry hm hlast => ⟨rfl, (h.farewell entry hm hlast).2⟩

theorem orderly_step (past : List (Event M O)) (event : Event M O) (t u : Service M O)
    (h : Orderly D requests past t) (ht : t.step D event = some u) :
    Orderly D requests (past ++ [event]) u :=
  orderly_takes h (step_takes.mp ht)

end EsphomeNativeApi.Services
