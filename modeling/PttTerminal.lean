import PttTerminal.Library.Loops
import PttTerminal.Library.LinkedCells
import PttTerminal.Library.Runs
import PttTerminal.Library.Journals
import PttTerminal.Scanner
import PttTerminal.Decimal
import PttTerminal.GroupStatus
import PttTerminal.LineLoop
import PttTerminal.Responses
import PttTerminal.GroupRecord
import PttTerminal.GroupStore
import PttTerminal.Regroup
import PttTerminal.DeletionPass
import PttTerminal.RegroupDelete
import PttTerminal.GroupListText
import PttTerminal.GroupLines
import PttTerminal.GroupListLoad
import PttTerminal.GroupListFrame
import PttTerminal.GroupListMerge
import PttTerminal.RegroupOrder
import PttTerminal.RegroupLaw
import PttTerminal.RegroupMessage
import PttTerminal.MemberInfo
import PttTerminal.PagerHandlers
import PttTerminal.CallInfo
import PttTerminal.MemberDelivery
import PttTerminal.GroupListDelivery
import PttTerminal.GroupMessage
import PttTerminal.SessionFrame
import PttTerminal.MulticastSession
import PttTerminal.SessionState
import PttTerminal.SessionTexts
import PttTerminal.MulticastParser
import PttTerminal.PacketText
import PttTerminal.PacketHistory
import PttTerminal.HeartbeatGroups
import PttTerminal.MediaOpening
import PttTerminal.GroupCells
import PttTerminal.GroupLedger
import PttTerminal.CurrentGroup
import PttTerminal.GroupMembership
import PttTerminal.TerminalState
import PttTerminal.TerminalService
import PttTerminal.TerminalEvents
import PttTerminal.FloorUpdate
import PttTerminal.OpenMic
import PttTerminal.FloorRequests
import PttTerminal.FloorRelease
import PttTerminal.FloorGroup
import PttTerminal.SingleCall
import PttTerminal.FloorTruth
import PttTerminal.CallBook
import PttTerminal.CallDesk
import PttTerminal.CallLog
import PttTerminal.CallLogPages
import PttTerminal.InCallScreen
import PttTerminal.CallClassification
import PttTerminal.CallAddress
import PttTerminal.SoftKey
import PttTerminal.MessageThreads
import PttTerminal.ReadMarks
import PttTerminal.RegisterThreads
import PttTerminal.SendResults
import PttTerminal.AnswerCall
import PttTerminal.CallEndings
import PttTerminal.CallWatchdog
import PttTerminal.RequestDispatch
import PttTerminal.ResponseText
import PttTerminal.FieldLengths
import PttTerminal.Pager
import PttTerminal.TextMessages
import PttTerminal.CallerNumber
import PttTerminal.FailedDial
import PttTerminal.GroupManager
import PttTerminal.RegistrationLoss
import PttTerminal.FreeFloor
import PttTerminal.DynamicRegroup
import PttTerminal.GroupSelection
import PttTerminal.MemberLists
import PttTerminal.GroupView
import PttTerminal.SessionDeletion
import PttTerminal.MessageDeletion
import PttTerminal.SessionCounts
import PttTerminal.Contacts
import PttTerminal.ContactPages
import PttTerminal.AlertRetries
import PttTerminal.Library.Patterns
import PttTerminal.IpText
import PttTerminal.MemberOrder
import PttTerminal.GroupRelease
import PttTerminal.ShownGroup
import PttTerminal.Library.Heaps
import PttTerminal.TimerHeap
import PttTerminal.TimerAgenda
import PttTerminal.TimerRuns
import PttTerminal.RingTone
import PttTerminal.Library.Users
import PttTerminal.Ringback
import PttTerminal.Library.ModifiedUtf8
import PttTerminal.Requests
import PttTerminal.WakeLock
import PttTerminal.Library.Rings
import PttTerminal.JitterFrames
import PttTerminal.JitterPuts
import PttTerminal.JitterBuffer
import PttTerminal.JitterRuns
