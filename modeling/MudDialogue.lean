import MudDialogue.Main
import MudDialogue.Pattern.Parser
import MudDialogue.Proofs.Backlog.Reads
import MudDialogue.Proofs.Backlog.Trimming
import MudDialogue.Proofs.Client.Spellings
import MudDialogue.Proofs.Client.Stopping
import MudDialogue.Proofs.CommandLine.Endings
import MudDialogue.Proofs.CommandLine.Secrecy
import MudDialogue.Proofs.Login.Conforming
import MudDialogue.Proofs.Session.Noise
import MudDialogue.Proofs.Session.Resuming
import MudDialogue.Proofs.Session.Verdict
import MudDialogue.Proofs.Signup.Conforming
import MudDialogue.Proofs.Signup.Report
import MudDialogue.Proofs.Telnet.Grammar
import MudDialogue.Proofs.Wander.Cuts
import MudDialogue.Proofs.Backlog.InOrder
import MudDialogue.Proofs.Terminal.CleanText
import MudDialogue.Proofs.Backlog.Legible
import MudDialogue.Proofs.Terminal.Sequences
import MudDialogue.Proofs.Backlog.Sequences
import MudDialogue.Proofs.Pattern.Characters
import MudDialogue.Proofs.World.Grammar
import MudDialogue.Proofs.World.Pattern
import MudDialogue.Proofs.World.ExitLines
import MudDialogue.Proofs.Session.Keeping
import MudDialogue.Proofs.Client.Deeds
import MudDialogue.Proofs.Client.Manner
import MudDialogue.Proofs.Login.Transcript
import MudDialogue.Proofs.Login.Proving
import MudDialogue.Proofs.World.Picks
import MudDialogue.Proofs.Wander.Tally
import MudDialogue.Proofs.World.Fairness
import MudDialogue.Proofs.World.Lasting
import MudDialogue.Proofs.Pattern.Priorities
import MudDialogue.Proofs.CommandLine.Grammar
