import Mathlib.Data.Finset.Card

/-!
# Ballots with a quorum

A ballot takes the vote of each voter once, is carried by the vote that makes up the quorum, and takes
no vote after that. It can be dismissed at any time, also after it was carried.

Votes alone carry a ballot exactly where there are as many distinct voters as the quorum, in whatever
order and however often they vote (`verdict_run_votes`).
-/

set_option autoImplicit false

namespace Library

inductive Verdict
  | carried
  | dismissed
deriving DecidableEq

/-- The votes that were counted, and the verdict once there is one. -/
structure Ballot (α : Type) where
  voters : List α := []
  verdict : Option Verdict := none

namespace Ballot

/-- What can be done about a ballot. -/
inductive Event (α : Type)
  | vote (voter : α)
  | dismiss
deriving DecidableEq

variable {α : Type} [DecidableEq α] (quorum : Int)

/-- The ballot after one more vote. -/
def vote (ballot : Ballot α) (voter : α) : Ballot α :=
  if ballot.verdict = none ∧ voter ∉ ballot.voters then
    { voters := ballot.voters ++ [voter]
      verdict := if quorum ≤ (ballot.voters.length : Int) + 1 then some .carried else none }
  else ballot

def dismiss (ballot : Ballot α) : Ballot α := { ballot with verdict := some .dismissed }

def apply (ballot : Ballot α) : Event α → Ballot α
  | .vote voter => ballot.vote quorum voter
  | .dismiss => ballot.dismiss

def run (ballot : Ballot α) (events : List (Event α)) : Ballot α := events.foldl (apply quorum) ballot

variable {quorum} {ballot : Ballot α} {voter : α}

@[simp] theorem run_nil : ballot.run quorum [] = ballot := rfl

@[simp] theorem run_cons (event : Event α) (events : List (Event α)) :
    ballot.run quorum (event :: events) = (ballot.apply quorum event).run quorum events := rfl

/-- A run goes on from the ballot where its first part ended. -/
theorem run_append (events events' : List (Event α)) :
    ballot.run quorum (events ++ events') = (ballot.run quorum events).run quorum events' :=
  List.foldl_append ..

/-- A ballot with a verdict takes no vote. -/
theorem vote_of_decided (decided : ballot.verdict ≠ none) : ballot.vote quorum voter = ballot :=
  if_neg fun h => decided h.1

/-- Nobody votes twice. -/
theorem vote_of_mem (seen : voter ∈ ballot.voters) : ballot.vote quorum voter = ballot :=
  if_neg fun h => h.2 seen

/-- On an open ballot a new voter is added, and decides it where the quorum is reached. -/
theorem vote_of_open (quorum : Int) (standing : ballot.verdict = none) (unseen : voter ∉ ballot.voters) :
    ballot.vote quorum voter =
      { voters := ballot.voters ++ [voter]
        verdict := if quorum ≤ (ballot.voters.length : Int) + 1 then some .carried else none } :=
  if_pos ⟨standing, unseen⟩

/-- Votes on a decided ballot are not counted. -/
theorem run_votes_of_decided (decided : ballot.verdict ≠ none) (voters : List α) :
    ballot.run quorum (voters.map .vote) = ballot := by
  induction voters with
  | nil => rfl
  | cons voter voters ih =>
    rw [List.map_cons, run_cons, apply, vote_of_decided decided, ih]

/-- The voter of a vote. -/
def Event.voter? : Event α → Option α
  | .vote voter => some voter
  | .dismiss => none

omit [DecidableEq α] in
/-- Events without a dismissal are votes. -/
theorem map_vote_voters {events : List (Event α)} (votes : .dismiss ∉ events) :
    (events.filterMap Event.voter?).map .vote = events := by
  induction events with
  | nil => rfl
  | cons event events ih =>
    cases event with
    | vote voter =>
      have hevents : .dismiss ∉ events := fun h => votes (List.mem_cons_of_mem _ h)
      exact congrArg (Event.vote voter :: ·) (ih hevents)
    | dismiss => exact absurd List.mem_cons_self votes

/-- A ballot that is open, with fewer votes than it takes. -/
structure Open (quorum : Int) (ballot : Ballot α) : Prop where
  standing : ballot.verdict = none
  distinct : ballot.voters.Nodup
  short : (ballot.voters.length : Int) < max 1 quorum

/-- The distinct voters of a ballot and of votes to come. -/
def electorate (ballot : Ballot α) (voters : List α) : Finset α := (ballot.voters ++ voters).toFinset

/-- The voters of an open ballot are distinct, so they are as many as the list is long. -/
theorem Open.card_electorate_nil (h : Open quorum ballot) :
    (ballot.electorate []).card = ballot.voters.length := by
  rw [electorate, List.append_nil, List.toFinset_card_of_nodup h.distinct]

/-- A second vote adds nobody. -/
theorem electorate_cons_of_mem (seen : voter ∈ ballot.voters) (voters : List α) :
    ballot.electorate (voter :: voters) = ballot.electorate voters := by
  ext other
  simp only [electorate, List.mem_toFinset, List.mem_append, List.mem_cons]
  constructor
  · rintro (hold | rfl | hnew)
    · exact Or.inl hold
    · exact Or.inl seen
    · exact Or.inr hnew
  · rintro (hold | hnew)
    · exact Or.inl hold
    · exact Or.inr (Or.inr hnew)

/-- A vote that is counted leaves the electorate as it is. -/
theorem electorate_vote (quorum : Int) (standing : ballot.verdict = none) (unseen : voter ∉ ballot.voters)
    (voters : List α) :
    (ballot.vote quorum voter).electorate voters = ballot.electorate (voter :: voters) := by
  rw [vote_of_open quorum standing unseen, electorate, electorate]
  apply congrArg List.toFinset
  simp

/-- A vote that falls short of the quorum leaves the ballot open. -/
theorem Open.vote_short (h : Open quorum ballot) (unseen : voter ∉ ballot.voters)
    (short : (ballot.voters.length : Int) + 1 < quorum) : Open quorum (ballot.vote quorum voter) := by
  rw [vote_of_open quorum h.standing unseen]
  refine ⟨if_neg (by omega), ?_, ?_⟩
  · exact h.distinct.append (List.nodup_singleton voter) (by simpa using unseen)
  · rw [List.length_append, List.length_singleton]
    omega

/-- **The verdict on votes alone**: an open ballot is carried where its electorate makes up the quorum,
and stays open where it does not. -/
theorem verdict_run_votes (h : Open quorum ballot) (voters : List α) :
    (ballot.run quorum (voters.map .vote)).verdict =
      if max 1 quorum ≤ ((ballot.electorate voters).card : Int) then some .carried else none := by
  induction voters generalizing ballot with
  | nil =>
    rw [h.card_electorate_nil, if_neg (not_le.mpr h.short)]
    exact h.standing
  | cons voter voters ih =>
    rw [List.map_cons, run_cons, apply]
    by_cases seen : voter ∈ ballot.voters
    · rw [vote_of_mem seen, electorate_cons_of_mem seen]
      exact ih h
    · rw [← electorate_vote quorum h.standing seen]
      by_cases enough : quorum ≤ (ballot.voters.length : Int) + 1
      · -- the vote carries the ballot, and the later ones change nothing
        have hvote := vote_of_open quorum h.standing seen
        rw [if_pos enough] at hvote
        have hdecided : (ballot.vote quorum voter).verdict ≠ none := by
          rw [hvote]
          exact Option.some_ne_none _
        rw [run_votes_of_decided hdecided]
        have hdistinct : (ballot.voters ++ [voter]).Nodup :=
          h.distinct.append (List.nodup_singleton voter) (by simpa using seen)
        have hcard := Finset.card_le_card (s := (ballot.voters ++ [voter]).toFinset)
          (t := (ballot.vote quorum voter).electorate voters) (by
            rw [hvote, electorate]
            intro other hother
            rw [List.mem_toFinset] at hother ⊢
            exact List.mem_append_left _ hother)
        rw [List.toFinset_card_of_nodup hdistinct, List.length_append, List.length_singleton] at hcard
        rw [if_pos (by omega), hvote]
      · exact ih (h.vote_short seen (by omega))

end Ballot

end Library
