import UsbMux.Rejected
import UsbMux.LateAnswers
import UsbMux.UartData
import UsbMux.Queries
import UsbMux.Outputs
import UsbMux.Corruption
import UsbMux.Loopback
import UsbMux.Bounded
import UsbMux.Balance
import UsbMux.Overflow
import UsbMux.Channel
import UsbMux.Service
import UsbMux.Failures
import UsbMux.Ports
import UsbMux.Args
import UsbMux.Commands
import UsbMux.Scan
import UsbMux.Scanner
import UsbMux.DebugXfer
import UsbMux.Main
import UsbMux.Requests
import UsbMux.Announced
import UsbMux.Sessions
import UsbMux.Printed
