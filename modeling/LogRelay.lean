import LogRelay.Layout
import LogRelay.Proofs.Pipe
import LogRelay.Proofs.Session.Calls
import LogRelay.Proofs.Session.Clients
import LogRelay.Proofs.Session.JsonLog
import LogRelay.Proofs.Truncation
import LogRelay.Session
import LogRelay.Proofs.Files
import LogRelay.Proofs.Gate
import LogRelay.Proofs.Session.FileGrowth
import LogRelay.Proofs.Session.Anchored
import LogRelay.Proofs.Session.Gating
import LogRelay.Proofs.Blanking
import LogRelay.Proofs.Session.Histories
import LogRelay.Proofs.Session.Conduct
import LogRelay.Proofs.Session.Independence
import LogRelay.Proofs.Session.MessageLength
import LogRelay.Proofs.Session.Relaying
import LogRelay.Proofs.Acceptance
import LogRelay.Proofs.Session.Copies
import LogRelay.Proofs.Session.Containment
import LogRelay.Proofs.Session.TextLog
import LogRelay.Proofs.Config
import LogRelay.Proofs.Level.Parser
import LogRelay.Proofs.Session.Agreement
import LogRelay.Proofs.Session.Escape
import LogRelay.Proofs.Session.LiteralText
import LogRelay.Proofs.Session.Numbers
import LogRelay.Proofs.CutText
