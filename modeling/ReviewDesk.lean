import ReviewDesk.Diff.Record
import ReviewDesk.Git.Record
import ReviewDesk.Main
import ReviewDesk.Proofs.Answers
import ReviewDesk.Proofs.Duplicates
import ReviewDesk.Proofs.ProgramParts
import ReviewDesk.Proofs.ChangeCounts
import ReviewDesk.Proofs.Chunks
import ReviewDesk.Proofs.Completion
import ReviewDesk.Proofs.FileByFile
import ReviewDesk.Proofs.FileHeaders
import ReviewDesk.Proofs.Frame
import ReviewDesk.Proofs.Hosts
import ReviewDesk.Proofs.Isolation
import ReviewDesk.Proofs.Names
import ReviewDesk.Proofs.Logins
import ReviewDesk.Proofs.NotFound
import ReviewDesk.Proofs.Headlines
import ReviewDesk.Proofs.Preferences
import ReviewDesk.Proofs.Scores
import ReviewDesk.Proofs.Searches
import ReviewDesk.Proofs.Secrecy
import ReviewDesk.Proofs.Workspaces
import ReviewDesk.Session
import ReviewDesk.Startup.Logs
import ReviewDesk.Startup.Server
