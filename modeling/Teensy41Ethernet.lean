import Teensy41Ethernet.Lib.Account
import Teensy41Ethernet.Lib.CString
import Teensy41Ethernet.Lib.Program
import Teensy41Ethernet.Lib.Ring
import Teensy41Ethernet.Lwip.Output
import Teensy41Ethernet.Driver.Transmit
import Teensy41Ethernet.Driver.Wake
import Teensy41Ethernet.Driver.Input
import Teensy41Ethernet.Driver.Restart
import Teensy41Ethernet.Sketch.Fragments
import Teensy41Ethernet.Echosrv
import Teensy41Ethernet.Etherraw.Datagram
import Teensy41Ethernet.Tftp.Timers
import Teensy41Ethernet.Tftp.Upload
import Teensy41Ethernet.Tftp.Download
import Teensy41Ethernet.Ftpd.Ownership
import Teensy41Ethernet.Ftpd.Live
import Teensy41Ethernet.Ftpd.Resources
import Teensy41Ethernet.Ftpd.Retr
import Teensy41Ethernet.Ftpd.Cwd
import Teensy41Ethernet.Ftpd.Lines
import Teensy41Ethernet.Ftpd.Quit
import Teensy41Ethernet.Ftpd.Links
import Teensy41Ethernet.Ftpd.Release
import Teensy41Ethernet.Ftpd.Names
import Teensy41Ethernet.Ftpd.Clients
import Teensy41Ethernet.Ftpd.Announced
import Teensy41Ethernet.Ftpd.Listing
import Teensy41Ethernet.Ftpd.Stor
import Teensy41Ethernet.Ftpd.Passive
import Teensy41Ethernet.Ftpd.Abort
import Teensy41Ethernet.Etherraw.Answers
import Teensy41Ethernet.Ftpd.PasvFailure
import Teensy41Ethernet.Ftpd.Regular
import Teensy41Ethernet.Ftpd.Dispatch
import Teensy41Ethernet.Ftpd.Port
import Teensy41Ethernet.Lwip.Thumb2
import Teensy41Ethernet.Etherraw.Arp
import Teensy41Ethernet.Etherraw.Classify
import Teensy41Ethernet.Sntp.Drift
import Teensy41Ethernet.Tftp.Request
import Teensy41Ethernet.Sketch.Sinks
import Teensy41Ethernet.Ftpd.SfifoSize
import Teensy41Ethernet.Ftpd.FatTime
import Teensy41Ethernet.Sketch.Mcast
import Teensy41Ethernet.Sntp.Ulltoa
import Teensy41Ethernet.Lib.Tiling
import Teensy41Ethernet.Lwip.Mem
import Teensy41Ethernet.Lwip.MemRun
import Teensy41Ethernet.Lib.DeltaList
import Teensy41Ethernet.Lwip.Timeouts
import Teensy41Ethernet.Lwip.TimerRun
import Teensy41Ethernet.Lwip.Reass
import Teensy41Ethernet.Lwip.ReassOrder
import Teensy41Ethernet.Lwip.ReassFrag
import Teensy41Ethernet.Lwip.ReassFlows
import Teensy41Ethernet.Lwip.Etharp
import Teensy41Ethernet.Lwip.EtharpMove
import Teensy41Ethernet.Lwip.EtharpRun
import Teensy41Ethernet.Lwip.EtharpLive
import Teensy41Ethernet.Lwip.EtharpNode
import Teensy41Ethernet.Lwip.Ip4Addr
